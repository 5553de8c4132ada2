import ProxySwitch.JsonText
import ProxySwitch.RouteRequests

set_option autoImplicit false

/-!
# The replies of the route server

`ProcessMessage` puts its replies together from texts, `EscapeJson` stands between the message of
an exception and the reply, and the client reads one line and parses it.
-/
namespace ProxySwitch.IpcReplies
open JsonText RouteRequests RuntimeStrings SessionRouteServer Utf16
open RouterPidRoutes (DWORD)

section Server

def unit (c : Char) : CodeUnit := BitVec.ofNat 16 c.toNat

/-- `String.Replace` of one character. -/
def replace (old : Char) (new : Text) (s : List CodeUnit) : List CodeUnit :=
  s.flatMap fun u => if u = unit old then encode new else [u]

def escapeJson (s : List CodeUnit) : List CodeUnit :=
  if s = [] then s
  else replace '\t' "\\t".toList (replace '\r' "\\r".toList (replace '\n' "\\n".toList
    (replace '"' "\\\"".toList (replace '\\' "\\\\".toList s))))

def errorHead : Text := "\x7b\"success\":false,\"error\":\"".toList

def errorTail : Text := "\"\x7d".toList

def doneText (success : Bool) : Text :=
  "\x7b\"success\":".toList ++ (if success then "true".toList else "false".toList) ++ ['}']

def render : Response → List CodeUnit
  | .done success => encode (doneText success)
  | .refused error => encode (errorHead ++ (error ++ errorTail))
  | .failed message => encode errorHead ++ (escapeJson message ++ encode errorTail)

def errorOf : Response → Option ExceptionMessage
  | .done _ => none
  | .refused error => some (encode error)
  | .failed message => some message

end Server

section Client

structure IpcResult where
  success : Bool
  error : Option (List CodeUnit)
  deriving DecidableEq

/-- Of two members of one name the last one counts. -/
def field (name : Text) (members : List (Text × Json)) : Option Json := members.reverse.lookup name

/-- What `SendAsync` makes of the line; `none` is an exception. -/
def receive (response : Text) : Option IpcResult :=
  if response = [] then some ⟨false, some (encode "empty response".toList)⟩
  else match parse response with
    | some (.object members) =>
      match field "success".toList members, field "error".toList members with
      | some (.bool success), none => some ⟨success, none⟩
      | some (.bool success), some .null => some ⟨success, none⟩
      | some (.bool success), some (.string error) => some ⟨success, some (encode error)⟩
      | _, _ => none
    | _ => none

def readLine (stream : Text) : Text := stream.takeWhile fun c => c != '\n' && c != '\r'

/-- The reply is one line and an object, and the client receives what the server means. The pipe is
    in UTF-8, so what arrives is the decoded reply. -/
structure Understood (response : Response) : Prop where
  oneLine : ∀ u ∈ render response, u ≠ unit '\n' ∧ u ≠ unit '\r'
  isObject : ∃ members, parse (decode (render response)) = some (.object members)
  received : receive (readLine (decode (render response ++ encode "\r\n".toList))) =
    some ⟨response.success, errorOf response⟩

end Client

section Units
variable {old c : Char}

theorem unit_eq_iff (hold : old.toNat < 0xD800) {u : CodeUnit} :
    u = unit old ↔ u.toNat = old.toNat := by
  rw [← BitVec.toNat_inj, unit, BitVec.toNat_ofNat]
  omega

theorem unit_inj {c d : Char} (hc : c.toNat < 0xD800) (hd : d.toNat < 0xD800)
    (h : unit c = unit d) : c = d := by
  have hcode : c.toNat = d.toNat := by
    rw [← (unit_eq_iff hc).mp rfl, ← (unit_eq_iff hd).mp rfl, h]
  rw [← Char.ofNat_toNat c, hcode, Char.ofNat_toNat]

theorem encodeChar_eq_unit (hold : old.toNat < 0xD800) : encodeChar old = [unit old] := by
  rw [encodeChar, if_pos (by omega)]
  rfl

theorem mem_encode_unit_iff (hold : old.toNat < 0xD800) (text : Text) :
    unit old ∈ encode text ↔ old ∈ text := by
  have hcode : (unit old).toNat = old.toNat := (unit_eq_iff hold).mp rfl
  have hplain : (isHigh (unit old) || isLow (unit old)) = false := by
    simp only [isHigh, isLow, hcode, Bool.or_eq_false_iff, Bool.and_eq_false_iff,
      decide_eq_false_iff_not]
    omega
  rw [mem_encode_iff hplain, hcode, Char.ofNat_toNat]

theorem flatMap_encodeChar (hold : old.toNat < 0xD800) (new : Text) (c : Char) :
    ((encodeChar c).flatMap fun u => if u = unit old then encode new else [u]) =
      encode (if c = old then new else [c]) := by
  by_cases heq : c = old
  · rw [heq, encodeChar_eq_unit hold, List.flatMap_singleton, if_pos rfl, if_pos rfl]
  · have hnone : ∀ u ∈ encodeChar c, u ≠ unit old := by
      rintro u hu rfl
      have hmem : unit old ∈ encode [c] := by
        rwa [encode_cons, encode_nil, List.append_nil]
      exact heq (List.mem_singleton.mp ((mem_encode_unit_iff hold [c]).mp hmem)).symm
    rw [if_neg heq, encode_cons, encode_nil, List.append_nil]
    calc ((encodeChar c).flatMap fun u => if u = unit old then encode new else [u])
        = (encodeChar c).flatMap fun u => [u] :=
          List.flatMap_congr fun u hu => if_neg (hnone u hu)
      _ = encodeChar c := List.flatMap_singleton' _

theorem replace_encode (hold : old.toNat < 0xD800) (new text : Text) :
    replace old new (encode text) = encode (text.flatMap fun c => if c = old then new else [c]) := by
  simp only [replace, encode, List.flatMap_assoc]
  exact List.flatMap_congr fun c _ => flatMap_encodeChar hold new c

end Units

section Escapes
variable {c : Char} {m tail : Text}

def escapeChar (c : Char) : Text :=
  if c = '\\' then "\\\\".toList
  else if c = '"' then "\\\"".toList
  else if c = '\n' then "\\n".toList
  else if c = '\r' then "\\r".toList
  else if c = '\t' then "\\t".toList
  else [c]

def escapeText (m : Text) : Text := m.flatMap escapeChar

/-- No control character but the three that `EscapeJson` knows. -/
def isEscaped (c : Char) : Bool := 32 ≤ c.toNat || c == '\n' || c == '\r' || c == '\t'

/-- The replacements do not touch what earlier ones have put in. -/
theorem escapeJson_encode (m : Text) : escapeJson (encode m) = encode (escapeText m) := by
  unfold escapeJson
  split_ifs with hm
  · have hnil : m = [] := by
      rw [← decode_encode m, hm]
      rfl
    rw [hnil]
    rfl
  · rw [replace_encode (by decide), replace_encode (by decide), replace_encode (by decide),
      replace_encode (by decide), replace_encode (by decide)]
    congr 1
    simp only [escapeText, List.flatMap_assoc]
    apply List.flatMap_congr
    intro c _
    by_cases hspecial : c = '\\' ∨ c = '"' ∨ c = '\n' ∨ c = '\r' ∨ c = '\t'
    · rcases hspecial with rfl | rfl | rfl | rfl | rfl
      all_goals rfl
    · simp only [not_or] at hspecial
      simp only [escapeChar, hspecial, if_false, List.flatMap_cons, List.flatMap_nil, List.append_nil]

theorem oneLine_of_all {text : Text} (h : text.all (fun c => c != '\n' && c != '\r') = true) :
    ∀ c ∈ text, c ≠ '\n' ∧ c ≠ '\r' := by
  intro c hc
  have hboth := List.all_eq_true.mp h c hc
  rwa [Bool.and_eq_true, bne_iff_ne, bne_iff_ne] at hboth

theorem escapeChar_oneLine (c : Char) : ∀ d ∈ escapeChar c, d ≠ '\n' ∧ d ≠ '\r' := by
  unfold escapeChar
  split_ifs with hbackslash hquote hnewline hreturn htab
  · exact oneLine_of_all rfl
  · exact oneLine_of_all rfl
  · exact oneLine_of_all rfl
  · exact oneLine_of_all rfl
  · exact oneLine_of_all rfl
  · intro d hd
    rw [List.mem_singleton.mp hd]
    exact ⟨hnewline, hreturn⟩

theorem escapeText_oneLine (m : Text) : ∀ d ∈ escapeText m, d ≠ '\n' ∧ d ≠ '\r' := by
  intro d hd
  rw [escapeText, List.mem_flatMap] at hd
  obtain ⟨c, -, hd⟩ := hd
  exact escapeChar_oneLine c d hd

/-- What stands for a character is read as that character, and a control character that has no
    escape sequence is not read at all. -/
theorem readString_escapeChar (c : Char) (s : Text) :
    readString (escapeChar c ++ s) =
      if isEscaped c then (readString s).map fun r => (c :: r.1, r.2) else none := by
  have hspecial : ∀ e, unescape e = some c → escapeChar c = ['\\', e] → isEscaped c = true →
      readString (escapeChar c ++ s) =
        if isEscaped c then (readString s).map fun r => (c :: r.1, r.2) else none := by
    intro e he heq hescaped
    rw [heq, if_pos hescaped]
    exact readString_escape he s
  by_cases hbackslash : c = '\\'
  · subst hbackslash
    exact hspecial '\\' rfl rfl rfl
  by_cases hquote : c = '"'
  · subst hquote
    exact hspecial '"' rfl rfl rfl
  by_cases hnewline : c = '\n'
  · subst hnewline
    exact hspecial 'n' rfl rfl rfl
  by_cases hreturn : c = '\r'
  · subst hreturn
    exact hspecial 'r' rfl rfl rfl
  by_cases htab : c = '\t'
  · subst htab
    exact hspecial 't' rfl rfl rfl
  have hself : escapeChar c = [c] := by
    simp only [escapeChar, hbackslash, hquote, hnewline, hreturn, htab, if_false]
  rw [hself, List.singleton_append]
  split_ifs with hescaped
  · apply readString_plain
    simpa [isPlain, isEscaped, hbackslash, hquote, hnewline, hreturn, htab] using hescaped
  · apply readString_control
    simp only [isEscaped, Bool.or_eq_true, decide_eq_true_eq, not_or] at hescaped
    omega

theorem readString_escapeText (m tail : Text) :
    readString (escapeText m ++ '"' :: tail) =
      if m.all isEscaped then some (m, tail) else none := by
  induction m with
  | nil => exact readString_quote tail
  | cons c m ih =>
    rw [escapeText] at ih
    rw [escapeText, List.flatMap_cons, List.append_assoc, readString_escapeChar, ih, List.all_cons]
    cases isEscaped c with
    | false => rfl
    | true =>
      cases m.all isEscaped with
      | false => rfl
      | true => rfl

end Escapes

section Replies
variable {response : Response} {message text : Text}

theorem readValue_errorHead (k : ℕ) (text : Text) :
    readValue (k + 1 + 1 + 1 + 1) (errorHead ++ text) =
      match readString text with
      | none => none
      | some (error, rest) =>
        ((readMore '}' (readMembers (k + 1)) ("error".toList, .string error) rest).map fun r =>
          (("success".toList, .bool false) :: r.1, r.2)).map fun r => (.object r.1, r.2) := by
  have hhead : errorHead ++ text = '{' :: '"' :: ("success".toList ++ '"' :: ':' ::
      'f' :: 'a' :: 'l' :: 's' :: 'e' :: ',' :: '"' :: ("error".toList ++ '"' :: ':' :: '"' ::
        text)) := rfl
  rw [hhead, readValue_object _ (by rw [skipSpace_of_not (by decide)]; simp),
    readMembers_key (by decide), readValue_false]
  simp only [readMore_comma]
  rw [readMembers_key (by decide), readValue_string]
  cases readString text with
  | none => rfl
  | some result => rfl

theorem length_errorHead (text : Text) :
    ∃ k, (errorHead ++ text).length + 1 = k + 1 + 1 + 1 + 1 :=
  ⟨(errorHead ++ text).length - 3, by
    have hhead : errorHead.length = 26 := by decide
    rw [List.length_append]
    omega⟩

theorem parse_error {text error : Text} (h : readString text = some (error, ['}'])) :
    parse (errorHead ++ text) =
      some (.object [("success".toList, .bool false), ("error".toList, .string error)]) := by
  rw [parse_eq_some_iff]
  obtain ⟨k, hk⟩ := length_errorHead text
  rw [hk, readValue_errorHead, h]
  exact ⟨[], rfl, rfl⟩

theorem parse_error_none {text : Text} (h : readString text = none) :
    parse (errorHead ++ text) = none := by
  unfold parse
  obtain ⟨k, hk⟩ := length_errorHead text
  rw [hk, readValue_errorHead, h]

theorem readLine_line {line : Text} (h : ∀ c ∈ line, c ≠ '\n' ∧ c ≠ '\r') :
    readLine (line ++ "\r\n".toList) = line := by
  have hall : ∀ c ∈ line, (c != '\n' && c != '\r') = true := by
    intro c hc
    simpa using h c hc
  exact List.takeWhile_append_of_pos hall |>.trans (by simp)

theorem understood_line (hrender : render response = encode text)
    (honeLine : ∀ c ∈ text, c ≠ '\n' ∧ c ≠ '\r') (hparse : ∃ members, parse text = some (.object members))
    (hreceive : receive text = some ⟨response.success, errorOf response⟩) :
    Understood response := by
  refine ⟨?_, ?_, ?_⟩
  · intro u hu
    rw [hrender] at hu
    constructor
    · rintro rfl
      exact (honeLine '\n' ((mem_encode_unit_iff (by decide) text).mp hu)).1 rfl
    · rintro rfl
      exact (honeLine '\r' ((mem_encode_unit_iff (by decide) text).mp hu)).2 rfl
  · rwa [hrender, decode_encode]
  · rw [hrender, ← encode_append, decode_encode, readLine_line honeLine, hreceive]

theorem understood_error {error : Text} (hrender : render response = encode (errorHead ++ text))
    (honeLine : ∀ c ∈ text, c ≠ '\n' ∧ c ≠ '\r') (h : readString text = some (error, ['}']))
    (hsuccess : response.success = false) (herror : errorOf response = some (encode error)) :
    Understood response := by
  have hhead : ∀ c ∈ errorHead, c ≠ '\n' ∧ c ≠ '\r' := oneLine_of_all rfl
  have hparse := parse_error h
  refine understood_line hrender ?_ ⟨_, hparse⟩ ?_
  · exact fun c hc => (List.mem_append.mp hc).elim (hhead c) (honeLine c)
  · have hne : errorHead ++ text ≠ [] := List.append_ne_nil_of_left_ne_nil (by decide) text
    rw [receive, if_neg hne, hparse, hsuccess, herror]
    rfl

theorem mem_tail_oneLine : ∀ c ∈ errorTail, c ≠ '\n' ∧ c ≠ '\r' := oneLine_of_all rfl

theorem render_failed (message : Text) : render (.failed (encode message)) =
    encode (errorHead ++ (escapeText message ++ errorTail)) := by
  rw [render, escapeJson_encode, ← encode_append, ← encode_append]

theorem understood_failed (hmessage : message.all isEscaped = true) :
    Understood (.failed (encode message)) := by
  refine understood_error (render_failed message) ?_ ?_ rfl rfl
  · exact fun c hc => (List.mem_append.mp hc).elim (escapeText_oneLine message c) (mem_tail_oneLine c)
  · exact (readString_escapeText message ['}']).trans (if_pos hmessage)

theorem understood_refused {error : Text} (hplain : error.all isPlain = true) :
    Understood (.refused error) := by
  refine understood_error rfl ?_ ?_ rfl rfl
  · intro c hc
    obtain hc | hc := List.mem_append.mp hc
    · have hcode := List.all_eq_true.mp hplain c hc
      constructor
      · rintro rfl
        exact absurd hcode (by decide)
      · rintro rfl
        exact absurd hcode (by decide)
    · exact mem_tail_oneLine c hc
  · exact readString_plains hplain ['}']

theorem parse_done (success : Bool) :
    parse (doneText success) = some (.object [("success".toList, .bool success)]) := by
  have hvalue : ∀ n, readValue (n + 1)
      ((if success then "true".toList else "false".toList) ++ ['}']) =
        some (.bool success, ['}']) := by
    intro n
    cases success with
    | true => exact readValue_true n ['}']
    | false => exact readValue_false n ['}']
  have htext : doneText success = '{' :: '"' :: ("success".toList ++ '"' :: ':' ::
      ((if success then "true".toList else "false".toList) ++ ['}'])) := rfl
  obtain ⟨k, hk⟩ : ∃ k, (doneText success).length + 1 = k + 1 + 1 + 1 := by
    cases success with
    | true => exact ⟨14, by decide⟩
    | false => exact ⟨15, by decide⟩
  rw [parse_eq_some_iff, hk, htext, readValue_object _ (by rw [skipSpace_of_not (by decide)]; simp),
    readMembers_key (by decide), hvalue]
  exact ⟨[], rfl, rfl⟩

theorem understood_done (success : Bool) : Understood (.done success) := by
  have hparse := parse_done success
  refine understood_line rfl ?_ ⟨_, hparse⟩ ?_
  · cases success with
    | true => exact oneLine_of_all (by decide)
    | false => exact oneLine_of_all (by decide)
  · have hne : doneText success ≠ [] := by
      cases success <;> decide
    exact (if_neg hne).trans (by rw [hparse]; rfl)

theorem error_of_receive {response : Text} {result : IpcResult} (h : receive response = some result)
    {error : List CodeUnit} (herror : result.error = some error) : ∃ text, error = encode text := by
  unfold receive at h
  split at h
  · cases h
    exact ⟨_, (Option.some.inj herror).symm⟩
  · split at h
    · split at h
      · cases h
        cases herror
      · cases h
        cases herror
      · cases h
        exact ⟨_, (Option.some.inj herror).symm⟩
      · cases h
    · cases h

/-- A control character without an escape sequence makes the reply no JSON text. -/
theorem not_understood_failed (hmessage : message.all isEscaped = false) :
    ¬Understood (.failed (encode message)) := by
  intro h
  obtain ⟨members, hparse⟩ := h.isObject
  have hread := readString_escapeText message ['}']
  rw [hmessage, if_neg Bool.false_ne_true] at hread
  have hnone : parse (decode (render (.failed (encode message)))) = none := by
    rw [render_failed, decode_encode]
    exact parse_error_none hread
  rw [hnone] at hparse
  cases hparse

/-- No unpaired surrogate, and no control character but those that `EscapeJson` knows. -/
structure Sendable (message : ExceptionMessage) : Prop where
  paired : wellFormed message = true
  escaped : ∀ u ∈ message, u.toNat < 32 → u = unit '\n' ∨ u = unit '\r' ∨ u = unit '\t'

theorem sendable_encode_iff (message : Text) :
    Sendable (encode message) ↔ message.all isEscaped = true := by
  simp only [List.all_eq_true, isEscaped, Bool.or_eq_true, decide_eq_true_eq, beq_iff_eq]
  constructor
  · intro h c hc
    by_cases hcontrol : c.toNat < 32
    · have hcode : (unit c).toNat = c.toNat := (unit_eq_iff (by omega)).mp rfl
      have hmem := (mem_encode_unit_iff (by omega) message).mpr hc
      obtain heq | heq | heq := h.escaped (unit c) hmem (by omega)
      · exact .inl (.inl (.inr (unit_inj (by omega) (by decide) heq)))
      · exact .inl (.inr (unit_inj (by omega) (by decide) heq))
      · exact .inr (unit_inj (by omega) (by decide) heq)
    · exact .inl (.inl (.inl (by omega)))
  · refine fun h => ⟨wellFormed_encode message, fun u hu hcontrol => ?_⟩
    have hcode : (Char.ofNat u.toNat).toNat = u.toNat := toNat_ofNat (by omega)
    have hself : u = unit (Char.ofNat u.toNat) := (unit_eq_iff (by omega)).mpr hcode.symm
    rw [hself] at hu ⊢
    have hmem := (mem_encode_unit_iff (by omega) message).mp hu
    obtain ((hle | heq) | heq) | heq := h _ hmem
    · omega
    · exact .inl (congrArg unit heq)
    · exact .inr (.inl (congrArg unit heq))
    · exact .inr (.inr (congrArg unit heq))

theorem understood_failed_iff (units : ExceptionMessage) :
    Understood (.failed units) ↔ Sendable units := by
  constructor
  · intro h
    obtain ⟨message, rfl⟩ := error_of_receive h.received rfl
    rw [sendable_encode_iff]
    by_contra hnot
    exact not_understood_failed (eq_false_of_ne_true hnot) h
  · intro h
    have hencode := encode_decode h.paired
    rw [← hencode] at h ⊢
    exact understood_failed ((sendable_encode_iff _).mp h)

end Replies

section Lines
variable (s : Server) (native : NativeCalls) (line : Line)

/-- The errors that the handlers report without an exception. -/
def refusals : List Text :=
  ["missing sessionId".toList, "missing endpoint".toList, "proxy endpoint not found".toList,
    "session not found".toList, "unknown action".toList, "invalid json".toList,
    "unauthorized".toList]

def Refuses (response : Response) : Prop := ∀ error, response = .refused error → error ∈ refusals

variable {s native line}

theorem refuses_reading {α : Type} {member : Member α} {next : α → Server × Response}
    (h : ∀ value, Refuses (next value).2) : Refuses (reading s member next).2 := by
  cases member with
  | error message => exact nofun
  | ok value => exact h value

theorem refuses_literal {error : Text} (h : error ∈ refusals) : Refuses (.refused error) := by
  intro _ heq
  obtain rfl := Response.refused.inj heq
  exact h

theorem refuses_createSession (id endpoint : String) :
    Refuses (respond (doCreateSession s id endpoint)).2 := by
  unfold doCreateSession
  split_ifs
  · exact refuses_literal (by decide)
  · exact refuses_literal (by decide)
  · split
    · exact refuses_literal (by decide)
    · exact nofun

theorem refuses_doAddPid (id : String) (pid : DWORD) (createdAt : BitVec 64)
    (stored : Bool) : Refuses (respond (doAddPid s id pid createdAt stored)).2 := by
  unfold doAddPid
  split_ifs
  · exact refuses_literal (by decide)
  · split
    · exact refuses_literal (by decide)
    · split
      · exact nofun
      · exact nofun

theorem refuses_doRemovePid (id : String) (pid : DWORD) :
    Refuses (respond (doRemovePid s id pid)).2 := by
  unfold doRemovePid
  split_ifs
  · exact refuses_literal (by decide)
  · split
    · exact refuses_literal (by decide)
    · exact nofun

theorem refuses_doCloseSession (id : String) : Refuses (respond (doCloseSession s id)).2 := by
  unfold doCloseSession
  split_ifs
  · exact refuses_literal (by decide)
  · split
    · exact refuses_literal (by decide)
    · exact nofun

theorem refuses_addPid (id : String) (pid : DWORD) (createdAt : BitVec 64)
    (call : NativeCall) : Refuses (addPid s id pid createdAt call).2 := by
  cases call with
  | succeeds => exact refuses_doAddPid id pid createdAt true
  | fails => exact refuses_doAddPid id pid createdAt false
  | throws message =>
    simp only [addPid]
    split
    · exact nofun
    · exact refuses_doAddPid id pid createdAt false

theorem refuses_removePid (id : String) (pid : DWORD) (call : NativeCall) :
    Refuses (removePid s id pid call).2 := by
  cases call with
  | succeeds => exact refuses_doRemovePid id pid
  | fails =>
    unfold removePid
    cases opened s id with
    | none => exact refuses_doRemovePid id pid
    | some state =>
      intro error h
      cases h
  | throws message =>
    unfold removePid
    cases opened s id with
    | none => exact refuses_doRemovePid id pid
    | some state =>
      intro error h
      cases h

theorem refuses_closeSession (id : String) (remove : DWORD → NativeCall) :
    Refuses (closeSession s id remove).2 := by
  unfold closeSession
  split
  · exact nofun
  · exact refuses_doCloseSession id

theorem refuses_processLine : Refuses (processLine s native line).2 := by
  cases line with
  | throws message => exact nofun
  | null => exact refuses_literal (by decide)
  | value r =>
    apply refuses_reading
    intro token
    split_ifs
    · exact refuses_literal (by decide)
    · apply refuses_reading
      intro action
      unfold dispatch
      split
      · exact refuses_reading fun id => refuses_reading fun endpoint => refuses_createSession _ _
      · exact refuses_reading fun id => refuses_reading fun pid => refuses_reading fun createdAt =>
          refuses_addPid _ _ _ _
      · exact refuses_reading fun id => refuses_reading fun pid => refuses_removePid _ _ _
      · exact refuses_reading fun id => refuses_closeSession _ _
      · exact refuses_literal (by decide)

structure Asks (r : Request) (action : String) : Prop where
  token : r.token = .ok (some expectedToken)
  action : r.action = .ok (some action)

/-- Where a request meets an exception: in the parser, in the first member that it cannot convert,
    or in the call into the native core for a session that is open. -/
inductive Raises (s : Server) (native : NativeCalls) : Line → ExceptionMessage → Prop
  | line (message : ExceptionMessage) : Raises s native (.throws message) message
  | token {r : Request} {message : ExceptionMessage} : r.token = .error message →
      Raises s native (.value r) message
  | action {r : Request} {message : ExceptionMessage} : r.token = .ok (some expectedToken) →
      r.action = .error message → Raises s native (.value r) message
  | sessionId {r : Request} {message : ExceptionMessage} {action : String} : Asks r action →
      action ∈ ["createSession", "addPid", "removePid", "closeSession"] →
      r.sessionId = .error message → Raises s native (.value r) message
  | endpoint {r : Request} {message : ExceptionMessage} {id : Option String} : Asks r "createSession" →
      r.sessionId = .ok id → r.endpoint = .error message → Raises s native (.value r) message
  | pid {r : Request} {message : ExceptionMessage} {action : String} {id : Option String} : Asks r action →
      action ∈ ["addPid", "removePid"] → r.sessionId = .ok id → r.pid = .error message →
      Raises s native (.value r) message
  | createdAtFileTime {r : Request} {message : ExceptionMessage} {id : Option String} {p : DWORD} :
      Asks r "addPid" → r.sessionId = .ok id → r.pid = .ok p →
      r.createdAtFileTime = .error message → Raises s native (.value r) message
  | associate {r : Request} {message : ExceptionMessage} {id : Option String} {p : DWORD} {t : BitVec 64} :
      Asks r "addPid" → r.sessionId = .ok id → r.pid = .ok p → r.createdAtFileTime = .ok t →
      opened s (id.getD "") ≠ none → native.associate = .throws message →
      Raises s native (.value r) message
  | remove {r : Request} {message : ExceptionMessage} {id : Option String} {p : DWORD} :
      Asks r "removePid" → r.sessionId = .ok id → r.pid = .ok p →
      opened s (id.getD "") ≠ none → native.remove p = .throws message →
      Raises s native (.value r) message

theorem reading_failed_iff {α : Type} {member : Member α} {next : α → Server × Response}
    {message : ExceptionMessage} : (reading s member next).2 = .failed message ↔
      member = .error message ∨ ∃ value, member = .ok value ∧ (next value).2 = .failed message := by
  unfold reading
  cases member with
  | error m => simp
  | ok value => simp

theorem respond_ne_failed (answer : Server × Reply) (message : ExceptionMessage) :
    (respond answer).2 ≠ .failed message := by
  unfold respond
  cases answer.2.error <;> exact nofun

theorem addPid_failed_iff {id : String} {p : DWORD} {t : BitVec 64} {call : NativeCall}
    {message : ExceptionMessage} : (addPid s id p t call).2 = .failed message ↔
      opened s id ≠ none ∧ call = .throws message := by
  unfold addPid
  cases call with
  | succeeds => simp [respond_ne_failed]
  | fails => simp [respond_ne_failed]
  | throws m =>
    cases opened s id with
    | none => simp [respond_ne_failed]
    | some state => simp

theorem removePid_failed_iff {id : String} {p : DWORD} {call : NativeCall} {message : ExceptionMessage} :
    (removePid s id p call).2 = .failed message ↔
      opened s id ≠ none ∧ call = .throws message := by
  unfold removePid
  cases call with
  | succeeds => simp [respond_ne_failed]
  | fails =>
    cases opened s id with
    | none => simp [respond_ne_failed]
    | some state => simp
  | throws m =>
    cases opened s id with
    | none => simp [respond_ne_failed]
    | some state => simp

theorem closeSession_ne_failed (id : String) (remove : DWORD → NativeCall) (message : ExceptionMessage) :
    (closeSession s id remove).2 ≠ .failed message := by
  unfold closeSession
  cases opened s id with
  | none => exact respond_ne_failed _ _
  | some state => exact nofun

theorem processLine_of_asks {r : Request} {action : String} (h : Asks r action) :
    processLine s native (.value r) = dispatch s native r (some action) := by
  unfold processLine
  dsimp only
  rw [h.token, h.action]
  rfl

theorem raises_of_failed {message : ExceptionMessage} (h : (processLine s native line).2 = .failed message) :
    Raises s native line message := by
  cases line with
  | throws m =>
    obtain rfl := Response.failed.inj h
    exact .line m
  | null => cases h
  | value r =>
    rcases reading_failed_iff.mp h with htoken | ⟨token, htoken, h⟩
    · exact .token htoken
    by_cases hother : token ≠ some expectedToken
    · rw [if_pos hother] at h
      cases h
    rw [if_neg hother] at h
    obtain rfl := Classical.not_not.mp hother
    rcases reading_failed_iff.mp h with haction | ⟨action, haction, h⟩
    · exact .action htoken haction
    unfold dispatch at h
    split at h
    · rcases reading_failed_iff.mp h with hid | ⟨id, hid, h⟩
      · exact .sessionId ⟨htoken, haction⟩ (by decide) hid
      rcases reading_failed_iff.mp h with hendpoint | ⟨endpoint, -, h⟩
      · exact .endpoint ⟨htoken, haction⟩ hid hendpoint
      · exact absurd h (respond_ne_failed _ _)
    · rcases reading_failed_iff.mp h with hid | ⟨id, hid, h⟩
      · exact .sessionId ⟨htoken, haction⟩ (by decide) hid
      rcases reading_failed_iff.mp h with hpid | ⟨p, hpid, h⟩
      · exact .pid ⟨htoken, haction⟩ (by decide) hid hpid
      rcases reading_failed_iff.mp h with htime | ⟨t, htime, h⟩
      · exact .createdAtFileTime ⟨htoken, haction⟩ hid hpid htime
      · obtain ⟨hopened, hcall⟩ := addPid_failed_iff.mp h
        exact .associate ⟨htoken, haction⟩ hid hpid htime hopened hcall
    · rcases reading_failed_iff.mp h with hid | ⟨id, hid, h⟩
      · exact .sessionId ⟨htoken, haction⟩ (by decide) hid
      rcases reading_failed_iff.mp h with hpid | ⟨p, hpid, h⟩
      · exact .pid ⟨htoken, haction⟩ (by decide) hid hpid
      · obtain ⟨hopened, hcall⟩ := removePid_failed_iff.mp h
        exact .remove ⟨htoken, haction⟩ hid hpid hopened hcall
    · rcases reading_failed_iff.mp h with hid | ⟨id, -, h⟩
      · exact .sessionId ⟨htoken, haction⟩ (by decide) hid
      · exact absurd h (closeSession_ne_failed _ _ _)
    · cases h

theorem failed_of_raises {message : ExceptionMessage} (h : Raises s native line message) :
    (processLine s native line).2 = .failed message := by
  cases h with
  | line => rfl
  | token htoken => exact reading_failed_iff.mpr (.inl htoken)
  | action htoken haction =>
    refine reading_failed_iff.mpr (.inr ⟨_, htoken, ?_⟩)
    rw [if_neg fun hother => hother rfl]
    exact reading_failed_iff.mpr (.inl haction)
  | sessionId hasks hmem hid =>
    rw [processLine_of_asks hasks]
    simp only [List.mem_cons, List.not_mem_nil, or_false] at hmem
    rcases hmem with rfl | rfl | rfl | rfl
    · exact reading_failed_iff.mpr (.inl hid)
    · exact reading_failed_iff.mpr (.inl hid)
    · exact reading_failed_iff.mpr (.inl hid)
    · exact reading_failed_iff.mpr (.inl hid)
  | endpoint hasks hid hendpoint =>
    rw [processLine_of_asks hasks]
    refine reading_failed_iff.mpr (.inr ⟨_, hid, ?_⟩)
    exact reading_failed_iff.mpr (.inl hendpoint)
  | pid hasks hmem hid hpid =>
    rw [processLine_of_asks hasks]
    simp only [List.mem_cons, List.not_mem_nil, or_false] at hmem
    rcases hmem with rfl | rfl
    · refine reading_failed_iff.mpr (.inr ⟨_, hid, ?_⟩)
      exact reading_failed_iff.mpr (.inl hpid)
    · refine reading_failed_iff.mpr (.inr ⟨_, hid, ?_⟩)
      exact reading_failed_iff.mpr (.inl hpid)
  | createdAtFileTime hasks hid hpid htime =>
    rw [processLine_of_asks hasks]
    refine reading_failed_iff.mpr (.inr ⟨_, hid, reading_failed_iff.mpr (.inr ⟨_, hpid, ?_⟩)⟩)
    exact reading_failed_iff.mpr (.inl htime)
  | associate hasks hid hpid htime hopened hcall =>
    rw [processLine_of_asks hasks]
    refine reading_failed_iff.mpr (.inr ⟨_, hid, reading_failed_iff.mpr (.inr ⟨_, hpid, ?_⟩)⟩)
    refine reading_failed_iff.mpr (.inr ⟨_, htime, ?_⟩)
    exact addPid_failed_iff.mpr ⟨hopened, hcall⟩
  | remove hasks hid hpid hopened hcall =>
    rw [processLine_of_asks hasks]
    refine reading_failed_iff.mpr (.inr ⟨_, hid, reading_failed_iff.mpr (.inr ⟨_, hpid, ?_⟩)⟩)
    exact removePid_failed_iff.mpr ⟨hopened, hcall⟩

/-- A reply is understood unless the request meets an exception whose message has an unpaired
    surrogate, or another control character than a line feed, a carriage return or a tabulator. -/
theorem understood_iff (s : Server) (native : NativeCalls) (line : Line) :
    Understood (processLine s native line).2 ↔
      ∀ message, Raises s native line message → Sendable message := by
  have hraises : ∀ message, Raises s native line message ↔
      (processLine s native line).2 = .failed message :=
    fun message => ⟨failed_of_raises, raises_of_failed⟩
  simp only [hraises]
  have hrefuses := @refuses_processLine s native line
  generalize (processLine s native line).2 = response at hrefuses
  cases response with
  | done success =>
    refine iff_of_true (understood_done success) ?_
    intro message h
    cases h
  | refused error =>
    have hplain : ∀ error ∈ refusals, error.all isPlain = true := by decide
    refine iff_of_true (understood_refused (hplain error (hrefuses error rfl))) ?_
    intro message h
    cases h
  | failed message =>
    rw [understood_failed_iff]
    constructor
    · intro h m hm
      obtain rfl := Response.failed.inj hm
      exact h
    · exact fun h => h message rfl

/-- The message of the parser repeats the character that it does not expect. -/
theorem control_character_reply : ¬∀ (s : Server) (native : NativeCalls) (line : Line),
    Understood (processLine s native line).2 := by
  intro h
  exact not_understood_failed (by decide)
    (h { proxyMap := fun _ => none, sessions := fun _ => none,
         router := { proxyServers := [], pidToProxy := fun _ => none } } {}
      (.throws (encode "Unexpected character encountered while parsing value: \x01. Path '', line 0, position 0.".toList)))

end Lines

end ProxySwitch.IpcReplies
