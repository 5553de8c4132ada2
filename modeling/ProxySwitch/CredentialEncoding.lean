import ProxySwitch.SocksNegotiation

set_option autoImplicit false

namespace ProxySwitch.CredentialEncoding
open SocksNegotiation

/-- `socks5_username_auth`. -/
structure UsernameAuth where
  version : UInt8 := 1
  usernameLength : UInt8 := 0
  usernameReserved : List UInt8 := List.replicate (255 + 1 + 255) 0

/-- `invalidParameter` is the handler that `strcpy_s` calls, `outside` a write behind the buffer. -/
inductive Fault
  | invalidParameter
  | outside
  deriving DecidableEq

def write (offset : ℕ) (bytes buffer : List UInt8) : Except Fault (List UInt8) :=
  if offset + bytes.length ≤ buffer.length then
    .ok (buffer.take offset ++ bytes ++ buffer.drop (offset + bytes.length))
  else .error .outside

/-- The text up to its first null character is copied, and a terminator. -/
def strcpyS (offset size : ℕ) (src buffer : List UInt8) : Except Fault (List UInt8) :=
  if size < (cStr src).length + 1 then .error .invalidParameter
  else write offset (cStr src ++ [0]) buffer

def UsernameAuth.init (auth : UsernameAuth) (username password : List UInt8) :
    Except Fault (UsernameAuth × ℕ) :=
  if 255 < username.length ∨ 255 < password.length then .ok (auth, 0)
  else do
    let usernameLength := UInt8.ofNat username.length
    let reserved ← strcpyS 0 255 username auth.usernameReserved
    let reserved ← write usernameLength.toNat [UInt8.ofNat password.length] reserved
    let reserved ← strcpyS (usernameLength.toNat + 1) 255 password reserved
    .ok ({ auth with usernameLength := usernameLength, usernameReserved := reserved },
      3 + username.length + password.length)

def UsernameAuth.sent (auth : UsernameAuth) (size : ℕ) : List UInt8 :=
  (auth.version :: auth.usernameLength :: auth.usernameReserved).take size

section Message
variable (username password : List UInt8)

def authMessage : List UInt8 :=
  1 :: UInt8.ofNat username.length :: (username ++ UInt8.ofNat password.length :: password)

def readAuth : List UInt8 → Option (List UInt8 × List UInt8)
  | version :: length :: rest =>
    match rest.drop length.toNat with
    | passwordLength :: password =>
      if version = 1 ∧ password.length = passwordLength.toNat then
        some (rest.take length.toNat, password)
      else none
    | [] => none
  | _ => none

variable {username password}

theorem toNat_length {text : List UInt8} (h : text.length ≤ 255) :
    (UInt8.ofNat text.length).toNat = text.length := by
  rw [UInt8.toNat_ofNat']
  exact Nat.mod_eq_of_lt (by omega)

theorem readAuth_authMessage (husername : username.length ≤ 255) (hpassword : password.length ≤ 255) :
    readAuth (authMessage username password) = some (username, password) := by
  simp only [readAuth, authMessage, toNat_length husername, List.drop_left, List.take_left,
    toNat_length hpassword, and_self, if_true]

end Message

/-- `init` succeeds, so that no write is behind the buffer, what is sent is the message, and the
    credentials can be read from it. -/
def RoundTrips (username password : List UInt8) : Prop :=
  ∃ auth, UsernameAuth.init {} username password = .ok (auth, 3 + username.length + password.length) ∧
    auth.sent (3 + username.length + password.length) = authMessage username password ∧
    readAuth (auth.sent (3 + username.length + password.length)) = some (username, password)

def IsCText (text : List UInt8) : Prop :=
  ∃ characters count, text = characters ++ List.replicate count 0 ∧
    (∀ c ∈ characters, c ≠ 0) ∧ characters.length ≤ 254

section Copies
variable {text username password buffer : List UInt8} {size : ℕ}

theorem cStr_length_le (text : List UInt8) : (cStr text).length ≤ text.length :=
  (List.takeWhile_prefix _).length_le

theorem copied_length (text : List UInt8) : (copied text).length = text.length := by
  rw [copied, List.length_append, List.length_replicate, Nat.add_sub_cancel' (cStr_length_le text)]

/-- A text survives the copy precisely when it is one to C. -/
theorem isCText_iff : IsCText text ↔ copied text = text ∧ (cStr text).length < 255 := by
  constructor
  · rintro ⟨characters, count, rfl, hnonzero, hlength⟩
    have hstop : (List.replicate count (0 : UInt8)).takeWhile (· ≠ 0) = [] := by
      cases count <;> simp [List.replicate_succ]
    have hcStr : cStr (characters ++ List.replicate count 0) = characters := by
      rw [cStr, List.takeWhile_append_of_pos (by simpa using hnonzero), hstop, List.append_nil]
    refine ⟨?_, by rw [hcStr]; omega⟩
    rw [copied, hcStr, List.length_append, List.length_replicate, Nat.add_sub_cancel_left]
  · rintro ⟨hcopied, hlength⟩
    refine ⟨cStr text, _, hcopied.symm, fun c hc => ?_, by omega⟩
    have hall := List.all_eq_true.mp (List.all_takeWhile (l := text)) c hc
    exact of_decide_eq_true hall

theorem write_append (front back : List UInt8) {middle bytes : List UInt8}
    (h : middle.length = bytes.length) : write front.length bytes (front ++ (middle ++ back)) =
      .ok (front ++ (bytes ++ back)) := by
  have hroom : front.length + bytes.length ≤ (front ++ (middle ++ back)).length := by
    simp only [List.length_append]
    omega
  rw [write, if_pos hroom, List.take_left, ← List.drop_drop, List.drop_left, ← h, List.drop_left,
    List.append_assoc]

theorem strcpyS_zeros (front : List UInt8) {room : ℕ} (hsize : (cStr text).length < size)
    (hroom : (cStr text).length < room) :
    strcpyS front.length size text (front ++ List.replicate room 0) =
      .ok (front ++ (cStr text ++ List.replicate (room - (cStr text).length) 0)) := by
  have hsplit : List.replicate room (0 : UInt8) = List.replicate ((cStr text).length + 1) 0 ++
      List.replicate (room - (cStr text).length - 1) 0 := by
    rw [List.replicate_append_replicate]
    congr 1
    omega
  have hterminated : [(0 : UInt8)] ++ List.replicate (room - (cStr text).length - 1) 0 =
      List.replicate (room - (cStr text).length) 0 := by
    rw [List.singleton_append, ← List.replicate_succ]
    congr 1
    omega
  have hfits : ¬size < (cStr text).length + 1 := by omega
  rw [strcpyS, if_neg hfits, hsplit, write_append _ _ (by simp), List.append_assoc, hterminated]

theorem strcpyS_long {offset : ℕ} (h : size ≤ (cStr text).length) :
    strcpyS offset size text buffer = .error .invalidParameter :=
  if_pos (Nat.lt_succ_of_le h)

theorem zeros_after (h : text.length ≤ size) :
    cStr text ++ List.replicate (size - (cStr text).length) 0 =
      copied text ++ List.replicate (size - text.length) 0 := by
  have hle := cStr_length_le text
  rw [copied, List.append_assoc, List.replicate_append_replicate]
  congr 2
  omega

end Copies

section Block
variable {username password : List UInt8}

/-- The block after `init`, if both copies fit. -/
def filled (username password : List UInt8) : UsernameAuth where
  usernameLength := UInt8.ofNat username.length
  usernameReserved := copied username ++ (UInt8.ofNat password.length ::
    (copied password ++ List.replicate (510 - username.length - password.length) 0))

theorem init_eq (husername : username.length ≤ 255) (hpassword : password.length ≤ 255)
    (hcopy : (cStr username).length < 255) :
    UsernameAuth.init {} username password =
      (strcpyS (username.length + 1) 255 password ((copied username ++
        [UInt8.ofNat password.length]) ++ List.replicate (510 - username.length) 0)).map
          fun reserved =>
            ({ usernameLength := UInt8.ofNat username.length, usernameReserved := reserved },
              3 + username.length + password.length) := by
  have hlengths : ¬(255 < username.length ∨ 255 < password.length) := by omega
  have hfirst : strcpyS 0 255 username (List.replicate (255 + 1 + 255) 0) =
      .ok (copied username ++ ([0] ++ List.replicate (510 - username.length) 0)) := by
    have hroom : (cStr username).length < 255 + 1 + 255 := by omega
    have hcopied := strcpyS_zeros [] hcopy hroom
    rw [List.length_nil, List.nil_append, List.nil_append, zeros_after (by omega)] at hcopied
    rw [hcopied, List.singleton_append, ← List.replicate_succ]
    congr 3
    omega
  have hsecond : write username.length [UInt8.ofNat password.length]
      (copied username ++ ([0] ++ List.replicate (510 - username.length) 0)) =
      .ok ((copied username ++ [UInt8.ofNat password.length]) ++
        List.replicate (510 - username.length) 0) := by
    have hlength : [(0 : UInt8)].length = [UInt8.ofNat password.length].length := rfl
    have hwritten := write_append (copied username) (List.replicate (510 - username.length) 0) hlength
    rw [copied_length] at hwritten
    rw [hwritten, List.append_assoc]
  simp only [UsernameAuth.init, if_neg hlengths, toNat_length husername, hfirst, hsecond, bind,
    Except.bind]
  cases strcpyS (username.length + 1) 255 password ((copied username ++
    [UInt8.ofNat password.length]) ++ List.replicate (510 - username.length) 0) <;> rfl

theorem init_fits (husername : username.length ≤ 255) (hpassword : password.length ≤ 255)
    (hcopy : (cStr username).length < 255) (hcopy' : (cStr password).length < 255) :
    UsernameAuth.init {} username password =
      .ok (filled username password, 3 + username.length + password.length) := by
  have hoffset : username.length + 1 =
      (copied username ++ [UInt8.ofNat password.length]).length := by
    rw [List.length_append, copied_length, List.length_singleton]
  have hroom := cStr_length_le password
  rw [init_eq husername hpassword hcopy, hoffset, strcpyS_zeros _ hcopy' (by omega),
    zeros_after (by omega), List.append_assoc, List.singleton_append]
  rfl

/-- A text that does not fit ends the process. -/
theorem init_long (husername : username.length ≤ 255) (hpassword : password.length ≤ 255)
    (hlong : ¬((cStr username).length < 255 ∧ (cStr password).length < 255)) :
    UsernameAuth.init {} username password = .error .invalidParameter := by
  by_cases hcopy : (cStr username).length < 255
  · have hpasswordLong : 255 ≤ (cStr password).length := by
      by_contra hshort
      exact hlong ⟨hcopy, by omega⟩
    rw [init_eq husername hpassword hcopy, strcpyS_long hpasswordLong]
    rfl
  · have hlengths : ¬(255 < username.length ∨ 255 < password.length) := by omega
    have hfirst : strcpyS 0 255 username (List.replicate (255 + 1 + 255) 0) =
        .error .invalidParameter := strcpyS_long (by omega)
    simp only [UsernameAuth.init, if_neg hlengths, hfirst, bind, Except.bind]

theorem sent_filled : (filled username password).sent (3 + username.length + password.length) =
    1 :: UInt8.ofNat username.length ::
      (copied username ++ UInt8.ofNat password.length :: copied password) := by
  have hsize : 3 + username.length + password.length =
      (1 :: UInt8.ofNat username.length :: (copied username ++ UInt8.ofNat password.length ::
        copied password)).length := by
    simp only [List.length_cons, List.length_append, copied_length]
    omega
  have hblock : (filled username password).version :: (filled username password).usernameLength ::
      (filled username password).usernameReserved =
      (1 :: UInt8.ofNat username.length :: (copied username ++ UInt8.ofNat password.length ::
        copied password)) ++ List.replicate (510 - username.length - password.length) 0 := by
    simp [filled]
  rw [UsernameAuth.sent, hblock, hsize, List.take_left]

theorem usernameAuthInit_eq (username password : List UInt8) : usernameAuthInit username password =
    match UsernameAuth.init {} username password with
    | .ok (auth, size) => some (auth.sent size)
    | .error _ => none := by
  unfold usernameAuthInit
  split_ifs with hlengths hcopies
  · simp only [UsernameAuth.init, if_pos hlengths]
    rfl
  · rw [init_fits (by omega) (by omega) hcopies.1 hcopies.2]
    exact congrArg some sent_filled.symm
  · rw [init_long (by omega) (by omega) hcopies]

theorem copied_inj_iff : (1 :: UInt8.ofNat username.length ::
      (copied username ++ UInt8.ofNat password.length :: copied password)) =
        authMessage username password ↔ copied username = username ∧ copied password = password := by
  simp only [authMessage, List.cons.injEq, true_and]
  constructor
  · intro h
    obtain ⟨hname, hrest⟩ := List.append_inj h (copied_length username)
    exact ⟨hname, (List.cons.inj hrest).2⟩
  · rintro ⟨hname, hpass⟩
    rw [hname, hpass]

end Block

/-- Credentials that pass the callers' checks are encoded as they are precisely when both are texts
    to C that leave room for the terminator. -/
theorem credentials_roundTrip_iff {ctx : NegotiateContext} {username password : List UInt8}
    (h : ctx.credentials = some (username, password)) :
    RoundTrips username password ↔ IsCText username ∧ IsCText password := by
  have hlengths : username.length ≤ 255 ∧ password.length ≤ 255 := by
    unfold NegotiateContext.credentials at h
    grind
  obtain ⟨husername, hpassword⟩ := hlengths
  rw [isCText_iff, isCText_iff]
  by_cases hcopies : (cStr username).length < 255 ∧ (cStr password).length < 255
  · have hinit := init_fits husername hpassword hcopies.1 hcopies.2
    constructor
    · rintro ⟨auth, hauth, hsent, -⟩
      obtain rfl : filled username password = auth := by
        rw [hinit] at hauth
        exact (Prod.mk.inj (Except.ok.inj hauth)).1
      rw [sent_filled, copied_inj_iff] at hsent
      exact ⟨⟨hsent.1, hcopies.1⟩, ⟨hsent.2, hcopies.2⟩⟩
    · rintro ⟨⟨hname, -⟩, ⟨hpass, -⟩⟩
      have hsent : (filled username password).sent (3 + username.length + password.length) =
          authMessage username password := by
        rw [sent_filled, copied_inj_iff]
        exact ⟨hname, hpass⟩
      refine ⟨_, hinit, hsent, ?_⟩
      rw [hsent]
      exact readAuth_authMessage husername hpassword
  · refine iff_of_false ?_ fun hboth => hcopies ⟨hboth.1.2, hboth.2.2⟩
    rintro ⟨auth, hauth, -⟩
    rw [init_long husername hpassword hcopies] at hauth
    cases hauth

theorem roundTrips_user_pass : RoundTrips [117, 115, 101, 114] [112, 97, 115, 115] := by
  have hchecked : NegotiateContext.credentials
      ⟨0, 0, some [117, 115, 101, 114], some [112, 97, 115, 115]⟩ =
        some ([117, 115, 101, 114], [112, 97, 115, 115]) := rfl
  refine (credentials_roundTrip_iff hchecked).mpr ⟨⟨[117, 115, 101, 114], 0, rfl, ?_, ?_⟩,
    ⟨[112, 97, 115, 115], 0, rfl, ?_, ?_⟩⟩
  all_goals simp

theorem full_length_ends_process : ¬∀ (ctx : NegotiateContext) (username password : List UInt8),
    ctx.credentials = some (username, password) → RoundTrips username password := by
  intro h
  obtain ⟨username, hlength, hcStr⟩ : ∃ username : List UInt8, username.length = 255 ∧
      (cStr username).length = 255 := by
    refine ⟨List.replicate 255 97, List.length_replicate, ?_⟩
    rw [cStr, List.takeWhile_replicate, if_pos (by decide), List.length_replicate]
  have hchecked : NegotiateContext.credentials ⟨0, 0, some username, some [97]⟩ =
      some (username, [97]) := by
    simp [NegotiateContext.credentials, hlength]
  obtain ⟨auth, hauth, -⟩ := h _ _ _ hchecked
  rw [init_long hlength.le (by decide) fun hfits => by omega] at hauth
  cases hauth

end ProxySwitch.CredentialEncoding
