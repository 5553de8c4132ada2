import Mathlib.Algebra.Ring.Int.Defs
import ProxySwitch.IpcReplies
import ProxySwitch.PidReuse

set_option autoImplicit false

namespace ProxySwitch.CreationTimes
open IpcReplies JsonText PidReuse RouteRequests RouterPidRoutes RuntimeStrings SessionRouteServer

def printInt (n : ℤ) : Text := (toString n).toList

def integer : Text → Option ℤ
  | '-' :: digits => (decimal digits).map fun n => -(n : ℤ)
  | digits => (decimal digits).map fun n => (n : ℤ)

/-- The two JSON libraries: how the client's one puts a text between quotes, and what the server's
    one makes of a line. -/
structure JsonLibraries where
  encode : Text → Text
  deserialize : Text → Line

/-- What the conversions of the members give; an integer outside the type is an exception. -/
structure Converted (members : List (Text × Json)) (r : Request) : Prop where
  token : ∀ text, field "token".toList members = some (.string text) →
    r.token = .ok (some (String.ofList text))
  action : ∀ text, field "action".toList members = some (.string text) →
    r.action = .ok (some (String.ofList text))
  sessionId : ∀ text, field "sessionId".toList members = some (.string text) →
    r.sessionId = .ok (some (String.ofList text))
  pid : ∀ literal n, field "pid".toList members = some (.number literal) →
    integer literal = some n → 0 ≤ n → n < 2 ^ 32 → r.pid = .ok (BitVec.ofInt 32 n)
  negative : ∀ literal n, field "pid".toList members = some (.number literal) →
    integer literal = some n → n < 0 → ∃ message, r.pid = .error message
  createdAtFileTime : ∀ literal n, field "createdAtFileTime".toList members = some (.number literal) →
    integer literal = some n → -2 ^ 63 ≤ n → n < 2 ^ 63 →
    r.createdAtFileTime = .ok (BitVec.ofInt 64 n)

structure JsonLibraries.Documented (lib : JsonLibraries) : Prop where
  encoded : ∀ text rest, readString (lib.encode text ++ '"' :: rest) = some (text, rest)
  deserialized : ∀ line members, parse line = some (.object members) →
    ∃ r, lib.deserialize line = .value r ∧ Converted members r

section Request
variable (lib : JsonLibraries) (sessionId : Text) (pid : DWORD) (createdAtUtc : BitVec 64)
  (opened : Option FileTime)

/-- `createdAtFileTime` of `AddPidAsync`. -/
def requestFileTime : BitVec 64 := (getProcessCreationFileTimeUtc opened).getD createdAtUtc

/-- The members of the request with their texts and values; `pid` holds the bits of an `int`. -/
def addPidMembers : List (Text × Text × Json) :=
  let text := fun s : Text => (quoted (lib.encode s), Json.string s)
  let number := fun n : ℤ => (printInt n, Json.number (printInt n))
  [("action".toList, text "addPid".toList), ("sessionId".toList, text sessionId),
    ("pid".toList, number pid.toInt),
    ("createdAtFileTime".toList, number (requestFileTime createdAtUtc opened).toInt),
    ("token".toList, text expectedToken.toList)]

def addPidLine : Text :=
  writeObject ((addPidMembers lib sessionId pid createdAtUtc opened).map fun m => (m.1, m.2.1))

end Request

section Integers

theorem all_toDigits (n : ℕ) : (Nat.toDigits 10 n).all isDigit = true :=
  List.all_eq_true.mpr fun _ hc => Nat.isDigit_of_mem_toDigits (by decide) (by decide) hc

theorem decimal_toDigits (n : ℕ) : decimal (Nat.toDigits 10 n) = some n := by
  rw [decimal, if_pos ⟨Nat.toDigits_ne_nil, all_toDigits n⟩]
  have hvalue := @Nat.ofDigitChars_ten_toDigits n
  rw [Nat.ofDigitChars_eq_foldl] at hvalue
  exact congrArg some hvalue

theorem printInt_natCast (n : ℕ) : printInt n = Nat.toDigits 10 n := by
  rw [printInt, Int.toString_eq_repr, Int.repr_eq_if, if_pos (Int.natCast_nonneg n), Int.toNat_natCast,
    Nat.toList_repr]

theorem printInt_neg {n : ℕ} (h : 0 < n) : printInt (-n) = '-' :: Nat.toDigits 10 n := by
  have hneg : ¬(0 : ℤ) ≤ -n := by omega
  rw [printInt, Int.toString_eq_repr, Int.repr_eq_if, if_neg hneg, Int.neg_neg, Int.toNat_natCast,
    String.toList_append, Nat.toList_repr]
  rfl

theorem printInt_cases (n : ℤ) : (∃ k : ℕ, n = k ∧ printInt n = Nat.toDigits 10 k) ∨
    ∃ k : ℕ, 0 < k ∧ n = -k ∧ printInt n = '-' :: Nat.toDigits 10 k := by
  obtain ⟨k, rfl | rfl⟩ := n.eq_nat_or_neg
  · exact .inl ⟨k, rfl, printInt_natCast k⟩
  · cases k with
    | zero => exact .inl ⟨0, rfl, printInt_natCast 0⟩
    | succ k => exact .inr ⟨k + 1, Nat.succ_pos k, rfl, printInt_neg (Nat.succ_pos k)⟩

theorem integer_toDigits (n : ℕ) : integer (Nat.toDigits 10 n) = some (n : ℤ) := by
  unfold integer
  split
  · -- a sign is no digit
    rename_i digits hdigits
    have hall := all_toDigits n
    rw [hdigits] at hall
    cases hall
  · rw [decimal_toDigits]
    rfl

theorem integer_printInt (n : ℤ) : integer (printInt n) = some n := by
  obtain ⟨k, rfl, hprint⟩ | ⟨k, -, rfl, hprint⟩ := printInt_cases n
  · rw [hprint, integer_toDigits]
  · rw [hprint, integer, decimal_toDigits]
    rfl

theorem toDigits_head {n : ℕ} (h : 0 < n) : (Nat.toDigits 10 n).head? ≠ some '0' := by
  induction n using Nat.strongRecOn with
  | ind n ih =>
    by_cases hsmall : n < 10
    · rw [Nat.toDigits_of_lt_base hsmall]
      intro hzero
      have hdigit := Nat.toNat_digitChar_of_lt_ten hsmall
      rw [Option.some.inj hzero] at hdigit
      have : '0'.toNat = 48 := rfl
      omega
    · have hfront : 0 < n / 10 := Nat.div_pos (by omega) (by decide)
      rw [Nat.toDigits_of_base_le (by decide) (by omega),
        List.head?_append_of_ne_nil _ Nat.toDigits_ne_nil]
      exact ih (n / 10) (Nat.div_lt_self (by omega) (by decide)) hfront

theorem isNumber_toDigits (n : ℕ) : isNumber (Nat.toDigits 10 n) = true ∧
    isNumber ('-' :: Nat.toDigits 10 n) = true := by
  have hall := all_toDigits n
  have hhead : ∀ rest, Nat.toDigits 10 n = '0' :: rest → rest = [] := by
    intro rest hrest
    cases n with
    | zero => exact (List.cons.inj (hrest.symm.trans (Nat.toDigits_zero 10))).2
    | succ n => exact absurd (by rw [hrest]; rfl) (toDigits_head (Nat.succ_pos n))
  cases hdigits : Nat.toDigits 10 n with
  | nil => exact absurd hdigits Nat.toDigits_ne_nil
  | cons c rest =>
    rw [hdigits] at hall
    obtain ⟨hc, hrest⟩ := Bool.and_eq_true_iff.mp hall
    by_cases hzero : c = '0'
    · subst hzero
      rw [hhead rest hdigits]
      decide
    · have hdigit : c.isDigit = true := hc
      have hminus : c ≠ '-' := by
        rintro rfl
        cases hc
      have hdrop : rest.dropWhile Char.isDigit = [] :=
        List.dropWhile_eq_nil_iff.mpr (List.all_eq_true.mp hrest)
      have hfraction : isFraction [] = true := rfl
      simp [isNumber, hminus, hdigit, hdrop, hfraction]

theorem printInt_number (n : ℤ) :
    isNumber (printInt n) = true ∧ (printInt n).all isNumberChar = true := by
  have hchars : ∀ k, (Nat.toDigits 10 k).all isNumberChar = true := by
    intro k
    refine List.all_eq_true.mpr fun c hc => ?_
    have hdigit : c.isDigit = true := List.all_eq_true.mp (all_toDigits k) c hc
    simp [isNumberChar, hdigit]
  obtain ⟨k, -, hprint⟩ | ⟨k, -, -, hprint⟩ := printInt_cases n
  · rw [hprint]
    exact ⟨(isNumber_toDigits k).1, hchars k⟩
  · rw [hprint]
    exact ⟨(isNumber_toDigits k).2, by rw [List.all_cons, hchars k]; rfl⟩

end Integers

section Libraries
variable {c : Char} {text : Text}

/-- Any character that may not stand between quotes as it is, by its code. -/
def encodeChar (c : Char) : Text :=
  if isPlain c then [c]
  else ['\\', 'u', '0', '0', Nat.digitChar (c.toNat / 16), Nat.digitChar (c.toNat % 16)]

end Libraries

section Transfer
variable {lib : JsonLibraries} {s : Server} {id : String} {pid : DWORD} {fileTime : BitVec 64}

theorem parse_addPidLine (hlib : lib.Documented) (sessionId : Text) (pid : DWORD)
    (createdAtUtc : BitVec 64) (opened : Option FileTime) :
    parse (addPidLine lib sessionId pid createdAtUtc opened) = some (.object
      ((addPidMembers lib sessionId pid createdAtUtc opened).map fun m => (m.1, m.2.2))) := by
  have htext : ∀ text, Reads (quoted (lib.encode text)) (.string text) := fun text =>
    reads_quoted (hlib.encoded text)
  have hnumber : ∀ n : ℤ, Reads (printInt n) (.number (printInt n)) := fun n =>
    reads_number (printInt_number n).1 (printInt_number n).2
  refine parse_writeObject (List.cons_ne_nil _ _) ?_
  simp only [addPidMembers, List.forall_mem_cons]
  exact ⟨⟨by decide, htext _⟩, ⟨by decide, htext _⟩, ⟨by decide, hnumber _⟩, ⟨by decide, hnumber _⟩,
    ⟨by decide, htext _⟩, List.forall_mem_nil _⟩

theorem deserialize_addPidLine (hlib : lib.Documented) (sessionId : Text) (pid : DWORD)
    (createdAtUtc : BitVec 64) (opened : Option FileTime) :
    ∃ r, lib.deserialize (addPidLine lib sessionId pid createdAtUtc opened) = .value r ∧
      r.createdAtFileTime = .ok (requestFileTime createdAtUtc opened) ∧
      (r.pid = .ok pid ∨ ∃ message, pid.toInt < 0 ∧ r.pid = .error message) ∧
      ∀ s native, processLine s native (.value r) = reading s r.pid fun pid =>
        addPid s (String.ofList sessionId) pid (requestFileTime createdAtUtc opened)
          native.associate := by
  obtain ⟨r, hr, hconverted⟩ :=
    hlib.deserialized _ _ (parse_addPidLine hlib sessionId pid createdAtUtc opened)
  have hfileTime : r.createdAtFileTime = .ok (requestFileTime createdAtUtc opened) := by
    have hconvert := hconverted.createdAtFileTime _ _ rfl (integer_printInt _)
      (BitVec.le_toInt _) BitVec.toInt_lt
    rwa [BitVec.ofInt_toInt] at hconvert
  have htoken : r.token = .ok (some expectedToken) := by
    have hconvert := hconverted.token _ rfl
    rwa [String.ofList_toList] at hconvert
  have haction : r.action = .ok (some "addPid") := by
    have hconvert := hconverted.action _ rfl
    rwa [String.ofList_toList] at hconvert
  have hsession := hconverted.sessionId _ rfl
  refine ⟨r, hr, hfileTime, ?_, fun s native => ?_⟩
  · have hmax : pid.toInt < 2 ^ 31 := BitVec.toInt_lt
    by_cases hpid : 0 ≤ pid.toInt
    · have hconvert := hconverted.pid _ _ rfl (integer_printInt _) hpid (by omega)
      rw [BitVec.ofInt_toInt] at hconvert
      exact .inl hconvert
    · obtain ⟨message, hconvert⟩ := hconverted.negative _ _ rfl (integer_printInt _) (by omega)
      exact .inr ⟨message, by omega, hconvert⟩
  · simp only [processLine, htoken, haction, hsession, hfileTime, reading, dispatch, ne_eq,
      not_true_eq_false, if_false, Option.getD_some]

/-- The line is handled as the message that `addPidAsync` stands for. -/
theorem processLine_addPidLine (hlib : lib.Documented) (sessionId : Text) {pid : DWORD}
    (hpid : 0 ≤ pid.toInt) (createdAtUtc : BitVec 64) (opened : Option FileTime) (s : Server)
    {native : NativeCalls} (hnative : native.associate = .succeeds) :
    processLine s native (lib.deserialize (addPidLine lib sessionId pid createdAtUtc opened)) =
      respond (processMessage s
        (addPidAsync (String.ofList sessionId) pid createdAtUtc opened) true) := by
  obtain ⟨r, hr, -, hread, hanswer⟩ :=
    deserialize_addPidLine hlib sessionId pid createdAtUtc opened
  have hok : r.pid = .ok pid := by
    refine hread.resolve_right ?_
    rintro ⟨message, hneg, -⟩
    omega
  rw [hr, hanswer, hok, hnative]
  rfl

end Transfer

end ProxySwitch.CreationTimes
