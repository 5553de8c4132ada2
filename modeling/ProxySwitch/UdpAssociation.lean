import ProxySwitch.SocksHandshake
import ProxySwitch.SocksNegotiation

set_option autoImplicit false

/-!
# The UDP ASSOCIATE of the local UDP proxy

`associate_to_socks5_proxy` makes three exchanges over a blocking socket. A receive fails, or takes
what there is into a structure that already reads as a success.
-/
namespace ProxySwitch.UdpAssociation
open SocksHandshake SocksNegotiation

abbrev Port := BitVec 16

def ntohs (high low : UInt8) : Port := high.toBitVec ++ low.toBitVec

/-- The server and the calls on the socket. `stream` is all that the server sends before it closes
    the connection. A receive is an error, or asks for a number of bytes. -/
structure Behaviour where
  stream : List UInt8
  identSent : Bool := true
  identReceive : Option ℕ
  authSent : Bool := true
  authReceive : Option ℕ := none
  associateSent : Bool := true
  associateReceive : Option ℕ

inductive Association
  | failed
  | terminated
  | port (p : Port)
  deriving DecidableEq

/-- What a receive of `n` bytes takes: something if there is anything, and at most the size of the
    structure. -/
def taken (size n : ℕ) (stream : List UInt8) : List UInt8 := stream.take (max 1 (min n size))

def left (size n : ℕ) (stream : List UInt8) : List UInt8 := stream.drop (max 1 (min n size))

def exchange {size : ℕ} (sent : Bool) (receive : Option ℕ) (response : Fin size → UInt8)
    (stream : List UInt8) : Option ((Fin size → UInt8) × List UInt8) :=
  if sent then
    receive.map fun n => (overwrite response (taken size n stream), left size n stream)
  else none

section Call
variable (ctx : NegotiateContext) (b : Behaviour)

def associate (stream : List UInt8) : Association :=
  match exchange b.associateSent b.associateReceive ![5, 0, 0, 0, 0, 0, 0, 0, 0, 0] stream with
  | none => .failed
  | some (associateResp, _) =>
    if respVersion associateResp ≠ 5 ∨ respReply associateResp ≠ 0 then .failed
    else .port (ntohs (respBindPort associateResp).1 (respBindPort associateResp).2)

/-- The constructor of the message throws if it is empty, which ends the process here, like a text
    that does not fit. -/
def authenticate (identResp : Fin 2 → UInt8) (stream : List UInt8) : Association :=
  match ctx.credentials with
  | none => .failed
  | some (username, password) =>
    match usernameAuthInit username password with
    | none | some [] => .terminated
    | some _ =>
      match exchange b.authSent b.authReceive identResp stream with
      | none => .failed
      | some (identResp, stream) => if identMethod identResp ≠ 0 then .failed else associate b stream

def onSelection (identResp : Fin 2 → UInt8) (stream : List UInt8) : Association :=
  if identVersion identResp ≠ 5 ∨ identMethod identResp = 0xFF then .failed
  else if identMethod identResp = 2 then authenticate ctx b identResp stream
  else associate b stream

def associateToSocks5Proxy : Association :=
  match exchange b.identSent b.identReceive ![5, 0] b.stream with
  | none => .failed
  | some (identResp, stream) => onSelection ctx b identResp stream

end Call

inductive AssociateReply (p : Port) : List UInt8 → Prop
  | succeeded (reserved addressType : UInt8) (address : List UInt8) (high low : UInt8)
      (bound : BoundAddress addressType address) (port : ntohs high low = p) :
      AssociateReply p (5 :: 0 :: reserved :: addressType :: (address ++ [high, low]))

inductive Grants (offered : List UInt8) (p : Port) : List UInt8 → Prop
  | noAuthentication (reply : List UInt8) (mem : 0 ∈ offered) (h : AssociateReply p reply) :
      Grants offered p (5 :: 0 :: reply)
  | usernamePassword (version : UInt8) (reply : List UInt8) (mem : 2 ∈ offered)
      (h : AssociateReply p reply) : Grants offered p (5 :: 2 :: version :: 0 :: reply)

def OnRealReply (ctx : NegotiateContext) (b : Behaviour) : Prop :=
  ∀ p, associateToSocks5Proxy ctx b = .port p →
    ∃ granted, granted <+: b.stream ∧ Grants ctx.methods p granted

def LooksGranted (n : ℕ) (stream : List UInt8) : Prop :=
  (taken 10 n stream).getD 0 5 = 5 ∧ (taken 10 n stream).getD 1 0 = 0

/-- The stream goes on with a whole reply of version 5 and code 0, and its port is where the
    structure for IPv4 has it: in the bytes 8 and 9, with zero for what is not taken. -/
def PortInPlace (n : ℕ) (stream : List UInt8) : Prop :=
  ∃ reserved addressType address high low back, BoundAddress addressType address ∧
    stream = 5 :: 0 :: reserved :: addressType :: (address ++ high :: low :: back) ∧
    (taken 10 n stream).getD 8 0 = high ∧ (taken 10 n stream).getD 9 0 = low

section Condition
variable (ctx : NegotiateContext) (b : Behaviour)

def ReplyWhole (stream : List UInt8) : Prop :=
  b.associateSent = true → ∀ n, b.associateReceive = some n →
    LooksGranted n stream → PortInPlace n stream

def StatusGranted (stream : List UInt8) : Prop :=
  (∃ username password, ctx.credentials = some (username, password) ∧
    (cStr username).length < 255 ∧ (cStr password).length < 255) ∧
  b.authSent = true ∧ ∃ n, b.authReceive = some n ∧ 2 ≤ n ∧
    ∃ version back, stream = version :: 0 :: back

def NothingGranted (stream : List UInt8) : Prop :=
  b.associateSent = true → ∀ n, b.associateReceive = some n → ¬LooksGranted n stream

/-- The first receive takes a whole selection of one of the two methods, and the reply after it is
    whole; unless the server refuses. -/
def SelectionWhole (n : ℕ) : List UInt8 → Prop
  | [] => NothingGranted b []
  | [version] => version = 5 → NothingGranted b []
  | version :: method :: rest => version = 5 →
      if n ≤ 1 then NothingGranted b (method :: rest)
      else if method = 0 then ReplyWhole b rest
      else if method = 2 then StatusGranted ctx b rest → ReplyWhole b (rest.drop 2)
      else method ≠ 0xFF → NothingGranted b rest

def RepliesWhole : Prop :=
  b.identSent = true → ∀ n, b.identReceive = some n → SelectionWhole ctx b n b.stream

end Condition

section Replies
variable {ctx : NegotiateContext} {b : Behaviour} {p : Port} {stream rest : List UInt8}

theorem ntohs_inj {high low high' low' : UInt8} :
    ntohs high low = ntohs high' low' ↔ high = high' ∧ low = low' := by
  constructor
  · intro h
    have hhigh := congrArg (BitVec.extractLsb' 8 8) h
    have hlow := congrArg (BitVec.extractLsb' 0 8) h
    rw [ntohs, ntohs, BitVec.extractLsb'_append_eq_left, BitVec.extractLsb'_append_eq_left] at hhigh
    rw [ntohs, ntohs, BitVec.extractLsb'_append_eq_right, BitVec.extractLsb'_append_eq_right] at hlow
    exact ⟨UInt8.toBitVec_inj.mp hhigh, UInt8.toBitVec_inj.mp hlow⟩
  · rintro ⟨rfl, rfl⟩
    rfl

def receivedPort (n : ℕ) (stream : List UInt8) : Port :=
  ntohs ((taken 10 n stream).getD 8 0) ((taken 10 n stream).getD 9 0)

theorem associate_eq_port : associate b stream = .port p ↔
    b.associateSent = true ∧ ∃ n, b.associateReceive = some n ∧ LooksGranted n stream ∧
      receivedPort n stream = p := by
  unfold associate exchange LooksGranted receivedPort
  cases hsent : b.associateSent with
  | false => simp
  | true =>
    cases hreceive : b.associateReceive with
    | none => simp
    | some n =>
      simp only [if_true, Option.map_some, Option.some.injEq, exists_eq_left', true_and]
      split_ifs with hrefused
      · refine iff_of_false nofun fun hgranted => ?_
        exact hrefused.elim (fun hne => hne hgranted.1.1) fun hne => hne hgranted.1.2
      · simp only [not_or, not_not] at hrefused
        rw [Association.port.injEq]
        exact (and_iff_right hrefused).symm

theorem exists_reply_iff {n : ℕ} : (∃ reply, reply <+: stream ∧
    AssociateReply (receivedPort n stream) reply) ↔ PortInPlace n stream := by
  constructor
  · rintro ⟨_, ⟨back, hstream⟩, ⟨reserved, addressType, address, high, low, hbound, hport⟩⟩
    obtain ⟨hhigh, hlow⟩ := ntohs_inj.mp hport
    refine ⟨reserved, addressType, address, high, low, back, hbound, ?_, hhigh.symm, hlow.symm⟩
    rw [← hstream]
    simp
  · rintro ⟨reserved, addressType, address, high, low, back, hbound, hstream, hhigh, hlow⟩
    refine ⟨_, ⟨back, ?_⟩, .succeeded reserved addressType address high low hbound ?_⟩
    · rw [hstream]
      simp
    · rw [receivedPort, hhigh, hlow]

/-- Every port that `associate` returns has been granted precisely when replies are whole. -/
theorem associate_granted_iff {granted : Port → Prop}
    (hgranted : ∀ p, granted p ↔ ∃ reply, reply <+: stream ∧ AssociateReply p reply) :
    (∀ p, associate b stream = .port p → granted p) ↔ ReplyWhole b stream := by
  simp only [associate_eq_port, hgranted, ReplyWhole]
  constructor
  · intro h hsent n hreceive hlooks
    exact exists_reply_iff.mp (h _ ⟨hsent, n, hreceive, hlooks, rfl⟩)
  · rintro h p ⟨hsent, n, hreceive, hlooks, rfl⟩
    exact exists_reply_iff.mpr (h hsent n hreceive hlooks)

theorem associate_refused_iff {granted : Port → Prop} (hrefused : ∀ p, ¬granted p) :
    (∀ p, associate b stream = .port p → granted p) ↔
      NothingGranted b stream := by
  simp only [associate_eq_port, hrefused, imp_false, not_and, not_exists, NothingGranted]
  constructor
  · intro h hsent n hreceive hlooks
    exact h _ hsent n hreceive hlooks rfl
  · intro h p hsent n hreceive hlooks _
    exact h hsent n hreceive hlooks

theorem grants_prefix_iff {offered : List UInt8} {version method : UInt8} :
    (∃ granted, granted <+: version :: method :: rest ∧ Grants offered p granted) ↔
      version = 5 ∧ (method = 0 ∧ 0 ∈ offered ∧
          (∃ reply, reply <+: rest ∧ AssociateReply p reply) ∨
        method = 2 ∧ 2 ∈ offered ∧ ∃ back, (∃ status, rest = status :: 0 :: back) ∧
          ∃ reply, reply <+: back ∧ AssociateReply p reply) := by
  constructor
  · rintro ⟨_, hfront, ⟨reply, hmem, hreply⟩ | ⟨status, reply, hmem, hreply⟩⟩
    · simp only [List.cons_prefix_cons] at hfront
      obtain ⟨rfl, rfl, hfront⟩ := hfront
      exact ⟨rfl, .inl ⟨rfl, hmem, reply, hfront, hreply⟩⟩
    · simp only [List.cons_prefix_cons] at hfront
      obtain ⟨rfl, rfl, back, hback⟩ := hfront
      refine ⟨rfl, .inr ⟨rfl, hmem, reply ++ back, ⟨status, hback.symm⟩, reply, ?_, hreply⟩⟩
      exact List.prefix_append reply back
  · rintro ⟨rfl, ⟨rfl, hmem, reply, hfront, hreply⟩ |
      ⟨rfl, hmem, back, ⟨status, rfl⟩, reply, hfront, hreply⟩⟩
    · exact ⟨_, by simpa only [List.cons_prefix_cons, true_and] using hfront,
        .noAuthentication reply hmem hreply⟩
    · exact ⟨_, by simpa only [List.cons_prefix_cons, true_and] using hfront,
        .usernamePassword status reply hmem hreply⟩

theorem not_grants_short {offered : List UInt8} (stream : List UInt8) (h : stream.length < 2) :
    ¬∃ granted, granted <+: stream ∧ Grants offered p granted := by
  rintro ⟨_, hfront, hgrants⟩
  have hlength := hfront.length_le
  cases hgrants <;> simp only [List.length_cons] at hlength <;> omega

theorem taken_one {n : ℕ} (h : n ≤ 1) (first : UInt8) (rest : List UInt8) :
    taken 2 n (first :: rest) = [first] ∧ left 2 n (first :: rest) = rest := by
  have hcount : max 1 (min n 2) = 1 := by omega
  rw [taken, left, hcount]
  exact ⟨rfl, rfl⟩

theorem taken_two {n : ℕ} (h : ¬n ≤ 1) (first second : UInt8) (rest : List UInt8) :
    taken 2 n (first :: second :: rest) = [first, second] ∧
      left 2 n (first :: second :: rest) = rest := by
  have hcount : max 1 (min n 2) = 2 := by omega
  rw [taken, left, hcount]
  exact ⟨rfl, rfl⟩

/-- A status that is not received whole leaves the method of the selection, which is no success. -/
theorem status_iff {n : ℕ} {identResp : Fin 2 → UInt8} (hmethod : identResp 1 ≠ 0) :
    overwrite identResp (taken 2 n rest) 1 = 0 ↔
      2 ≤ n ∧ ∃ version back, rest = version :: 0 :: back := by
  cases rest with
  | nil => simpa [taken, overwrite] using hmethod
  | cons version rest =>
    by_cases hn : n ≤ 1
    · rw [(taken_one hn version rest).1]
      refine iff_of_false hmethod fun h => ?_
      omega
    · cases rest with
      | nil =>
        have htaken : taken 2 n [version] = [version] := List.take_of_length_le (by simp)
        rw [htaken]
        refine iff_of_false hmethod ?_
        simp
      | cons status rest =>
        rw [(taken_two hn version status rest).1]
        have hread : overwrite identResp [version, status] 1 = status := rfl
        rw [hread]
        constructor
        · rintro rfl
          exact ⟨by omega, version, rest, rfl⟩
        · rintro ⟨-, _, _, hrest⟩
          exact (List.cons.inj (List.cons.inj hrest).2).1

theorem authenticate_eq_port {identResp : Fin 2 → UInt8} (hmethod : identResp 1 ≠ 0) :
    authenticate ctx b identResp rest = .port p ↔
      StatusGranted ctx b rest ∧ associate b (rest.drop 2) = .port p := by
  unfold authenticate StatusGranted
  cases hcredentials : ctx.credentials with
  | none => simp
  | some credentials =>
    obtain ⟨username, password⟩ := credentials
    obtain ⟨husername, hpassword, auth, hinit, hauth⟩ | ⟨hlong, hinit⟩ :=
      init_of_credentials hcredentials
    · obtain ⟨first, more, rfl⟩ := List.exists_cons_of_ne_nil hauth
      have hfits : ∃ u q, (username, password) = (u, q) ∧
          (cStr u).length < 255 ∧ (cStr q).length < 255 :=
        ⟨username, password, rfl, husername, hpassword⟩
      simp only [hinit, exchange]
      cases hsent : b.authSent with
      | false => simp
      | true =>
        cases hreceive : b.authReceive with
        | none => simp
        | some n =>
          simp only [if_true, Option.map_some, Option.some.injEq, exists_eq_left', true_and]
          by_cases hstatus : overwrite identResp (taken 2 n rest) 1 = 0
          · obtain ⟨hn, version, back, rfl⟩ := (status_iff hmethod).mp hstatus
            have hleft : left 2 n (version :: 0 :: back) = back := (taken_two (by omega) _ _ _).2
            rw [if_neg (not_not_intro hstatus), hleft]
            exact (and_iff_right ⟨hfits, hn, version, back, rfl⟩).symm
          · rw [if_pos hstatus]
            refine iff_of_false nofun fun h => ?_
            exact hstatus ((status_iff hmethod).mpr h.1.2)
    · simp only [hinit]
      refine iff_of_false nofun fun h => ?_
      obtain ⟨u, q, hsame, hfits⟩ := h.1.1
      cases hsame
      exact hlong hfits

/-- Credentials are only sent to a server that was offered them. -/
theorem offered_of_statusGranted (h : StatusGranted ctx b rest) : 2 ∈ ctx.methods := by
  obtain ⟨⟨username, password, hcredentials, -⟩, -⟩ := h
  exact username_of_credentials hcredentials

theorem password_granted_iff : (∀ p, authenticate ctx b (overwrite ![5, 0] [5, 2]) rest = .port p →
    ∃ granted, granted <+: 5 :: 2 :: rest ∧ Grants ctx.methods p granted) ↔
      (StatusGranted ctx b rest → ReplyWhole b (rest.drop 2)) := by
  have hmethod : overwrite (![5, 0] : Fin 2 → UInt8) [5, 2] 1 ≠ 0 := by decide
  simp only [authenticate_eq_port hmethod, grants_prefix_iff, and_imp]
  rw [forall_comm]
  refine forall_congr' fun hstatus => associate_granted_iff fun p => ?_
  obtain ⟨-, -, n, -, -, version, back, rfl⟩ := id hstatus
  simp [offered_of_statusGranted hstatus]

theorem call_eq {n : ℕ} (hsent : b.identSent = true) (hreceive : b.identReceive = some n) :
    associateToSocks5Proxy ctx b =
      onSelection ctx b (overwrite ![5, 0] (taken 2 n b.stream)) (left 2 n b.stream) := by
  simp only [associateToSocks5Proxy, exchange, hsent, hreceive, if_true, Option.map_some]

/-- Without the byte of the method the default is read, no authentication. -/
theorem onSelection_short (version : UInt8) (stream : List UInt8) :
    onSelection ctx b (overwrite ![5, 0] [version]) stream =
      if version = 5 then associate b stream else .failed := by
  have hversion : identVersion (overwrite ![5, 0] [version]) = version := rfl
  have hmethod : identMethod (overwrite ![5, 0] [version]) = 0 := rfl
  rw [onSelection, hversion, hmethod]
  split_ifs <;> simp_all

theorem onSelection_whole (version method : UInt8) (stream : List UInt8) :
    onSelection ctx b (overwrite ![5, 0] [version, method]) stream =
      if version ≠ 5 ∨ method = 0xFF then .failed
      else if method = 2 then authenticate ctx b (overwrite ![5, 0] [version, method]) stream
      else associate b stream := rfl

theorem short_granted_iff {granted : Port → Prop} (hrefused : ∀ p, ¬granted p) (version : UInt8) :
    (∀ p, onSelection ctx b (overwrite ![5, 0] [version]) stream = .port p → granted p) ↔
      (version = 5 → NothingGranted b stream) := by
  rw [onSelection_short]
  by_cases hversion : version = 5
  · simp only [hversion, if_true, forall_const]
    exact associate_refused_iff hrefused
  · rw [if_neg hversion]
    exact iff_of_true nofun fun h => absurd h hversion

theorem version_of_looksGranted {n : ℕ} {first : UInt8} (h : LooksGranted n (first :: rest)) :
    first = 5 := by
  have htaken : taken 10 n (first :: rest) = first :: rest.take (max 1 (min n 10) - 1) := by
    rw [taken, ← Nat.sub_add_cancel (le_max_left 1 (min n 10)), List.take_succ_cons,
      Nat.add_sub_cancel]
  have hversion := h.1
  rwa [htaken] at hversion

/-- The byte of the method is left for the reply, where it counts as the version. -/
theorem split_granted_iff (method : UInt8) :
    (∀ p, onSelection ctx b (overwrite ![5, 0] [5]) (method :: rest) = .port p →
      ∃ granted, granted <+: 5 :: method :: rest ∧ Grants ctx.methods p granted) ↔
        NothingGranted b (method :: rest) := by
  by_cases hmethod : method = 5
  · subst hmethod
    refine (short_granted_iff (fun p => ?_) 5).trans (imp_iff_right rfl)
    simp [grants_prefix_iff]
  · have hnothing : NothingGranted b (method :: rest) := fun _ n _ hlooks =>
      hmethod (version_of_looksGranted hlooks)
    refine iff_of_true (fun p hport => ?_) hnothing
    rw [onSelection_short, if_pos rfl, associate_eq_port] at hport
    obtain ⟨hsent, n, hreceive, hlooks, -⟩ := hport
    exact absurd hlooks (hnothing hsent n hreceive)

theorem whole_granted_iff (method : UInt8) :
    (∀ p, onSelection ctx b (overwrite ![5, 0] [5, method]) rest = .port p →
      ∃ granted, granted <+: 5 :: method :: rest ∧ Grants ctx.methods p granted) ↔
        if method = 0 then ReplyWhole b rest
        else if method = 2 then StatusGranted ctx b rest → ReplyWhole b (rest.drop 2)
        else method ≠ 0xFF → NothingGranted b rest := by
  rw [onSelection_whole]
  by_cases hnone : method = 0
  · subst hnone
    have hoffered : 0 ∈ ctx.methods := (mem_methods ctx 0).mpr (.inl rfl)
    refine associate_granted_iff fun p => ?_
    simp [grants_prefix_iff, hoffered]
  · by_cases hpassword : method = 2
    · subst hpassword
      exact password_granted_iff
    · rw [if_neg hnone, if_neg hpassword, if_neg hpassword]
      have hrefused : ∀ p, ¬∃ granted, granted <+: 5 :: method :: rest ∧
          Grants ctx.methods p granted := by
        simp [grants_prefix_iff, hnone, hpassword]
      by_cases hfailed : method = 0xFF
      · rw [if_pos (.inr hfailed)]
        exact iff_of_true nofun fun h => absurd hfailed h
      · have hgoes : ¬((5 : UInt8) ≠ 5 ∨ method = 0xFF) := by simp [hfailed]
        rw [if_neg hgoes]
        exact (associate_refused_iff hrefused).trans (imp_iff_right hfailed).symm

end Replies

/-- A port is only returned for a real reply precisely when the server's answers are received whole
    and name the port where the structure for IPv4 has it. -/
theorem onRealReply_iff (ctx : NegotiateContext) (b : Behaviour) :
    OnRealReply ctx b ↔ RepliesWhole ctx b := by
  cases hsent : b.identSent with
  | false => simp [OnRealReply, RepliesWhole, associateToSocks5Proxy, exchange, hsent]
  | true =>
    cases hreceive : b.identReceive with
    | none => simp [OnRealReply, RepliesWhole, associateToSocks5Proxy, exchange, hsent, hreceive]
    | some n =>
      simp only [OnRealReply, RepliesWhole, call_eq hsent hreceive, hsent, hreceive,
        Option.some.injEq, forall_eq', forall_const]
      rcases b.stream with _ | ⟨version, _ | ⟨method, rest⟩⟩
      · have hdefault : onSelection ctx b (overwrite ![5, 0] (taken 2 n [])) (left 2 n []) =
            associate b [] := by
          simp [onSelection, overwrite, taken, left]
        rw [hdefault]
        exact associate_refused_iff fun p => not_grants_short [] Nat.two_pos
      · have htaken : taken 2 n [version] = [version] := List.take_of_length_le (by simp)
        have hleft : left 2 n [version] = [] := List.drop_eq_nil_of_le (by simp)
        rw [htaken, hleft]
        exact short_granted_iff (fun p => not_grants_short [version] Nat.one_lt_two) version
      · by_cases hversion : version = 5
        · subst hversion
          simp only [SelectionWhole, forall_const]
          by_cases hn : n ≤ 1
          · rw [(taken_one hn _ _).1, (taken_one hn _ _).2, if_pos hn]
            exact split_granted_iff method
          · rw [(taken_two hn _ _ _).1, (taken_two hn _ _ _).2, if_neg hn]
            exact whole_granted_iff method
        · refine iff_of_true (fun p => ?_) fun h => absurd h hversion
          by_cases hn : n ≤ 1
          · rw [(taken_one hn _ _).1, onSelection_short, if_neg hversion]
            intro hport
            cases hport
          · rw [(taken_two hn _ _ _).1, onSelection_whole, if_pos (.inl hversion)]
            intro hport
            cases hport

/-- The server closes the connection without a word, and the port is 0. -/
theorem closed_connection_associates :
    ¬∀ (ctx : NegotiateContext) (b : Behaviour), OnRealReply ctx b := by
  intro h
  have hport : associateToSocks5Proxy ⟨0, 0, none, none⟩
      { stream := [], identReceive := some 2, associateReceive := some 10 } = .port 0 := by decide
  obtain ⟨granted, hfront, hgrants⟩ := h _ _ 0 hport
  exact not_grants_short [] Nat.two_pos ⟨granted, hfront, hgrants⟩

end ProxySwitch.UdpAssociation
