import Mathlib.Data.Fin.VecNotation
import Mathlib.Data.Int.Notation
import ProxySwitch.TransitionRuns

set_option autoImplicit false

/-!
# The SOCKS5 TCP negotiation

`socks5_tcp_proxy_socket` between `remote_negotiate` and the data relay: one receive is
posted at a time, into a structure of fixed size, and its completion drives the state.
The server's bytes are one stream, which the receives cut as they like. Calls on an open
socket do not fail.
-/
namespace ProxySwitch.SocksNegotiation
open TransitionRuns

inductive Socks5State
  | preLogin
  | loginSent
  | loginResponded
  | passwordSent
  | passwordResponded
  | connectSent
  deriving DecidableEq

/-- `socks5_negotiate_context<net::ip_address_v4>`; a `std::string` is its bytes. -/
structure NegotiateContext where
  remoteAddress : BitVec 32
  remotePort : UInt16
  socks5Username : Option (List UInt8)
  socks5Password : Option (List UInt8)

/-- `connect` leaves out the constant fields: version 5, command 1 and the reserved zero. -/
inductive Request
  | ident (methods : List UInt8)
  | usernameAuth (auth : List UInt8)
  | connect (addressType : UInt8) (destAddress : BitVec 32) (destPort : UInt16)
  deriving DecidableEq

/-- What has become of the session. `terminated` is the process: `strcpy_s` ends it when
    the text does not fit. -/
inductive Connection
  | negotiating
  | relaying
  | closed
  | terminated
  deriving DecidableEq

inductive RecvBuf
  | identResp
  | connectResponse
  deriving DecidableEq

/-- The two responses are the bytes of their packed structures. `inbound` is what the server
    sends and no receive has taken yet; the relay reads on from there. -/
structure Socket where
  currentState : Socks5State
  connection : Connection
  identResp : Fin 2 → UInt8
  connectResponse : Fin 10 → UInt8
  recvBuf : RecvBuf
  sent : List Request
  inbound : List UInt8

def Socket.closeClient (s : Socket) : Socket := { s with connection := .closed }

def Socket.startDataRelay (s : Socket) : Socket := { s with connection := .relaying }

def NegotiateContext.methods (ctx : NegotiateContext) : List UInt8 :=
  if ctx.socks5Username = none then [0] else [0, 2]

def remoteNegotiate (ctx : NegotiateContext) (s : Socket) : Socket :=
  if s.currentState = .preLogin then
    { s with
      sent := s.sent ++ [.ident ctx.methods]
      recvBuf := .identResp
      currentState := .loginSent }
  else s

def sendConnect (ctx : NegotiateContext) (s : Socket) : Socket :=
  { s with
    sent := s.sent ++ [.connect 1 ctx.remoteAddress ctx.remotePort]
    recvBuf := .connectResponse
    currentState := .connectSent }

def sendUsernameAuth (auth : List UInt8) (s : Socket) : Socket :=
  { s with
    sent := s.sent ++ [.usernameAuth auth]
    recvBuf := .identResp
    currentState := .passwordSent }

-- a `std::string` may hold null characters, and `c_str()` ends at the first
def cStr (text : List UInt8) : List UInt8 := text.takeWhile (· ≠ 0)

/-- A text copied by `strcpy_s` into zeroed memory, as long as its `std::string`. -/
def copied (text : List UInt8) : List UInt8 :=
  cStr text ++ List.replicate (text.length - (cStr text).length) 0

/-- The bytes `socks5_username_auth::init` leaves to be sent, or `none` where `strcpy_s` ends
    the process: it has room for 254 characters. -/
def usernameAuthInit (username password : List UInt8) : Option (List UInt8) :=
  if 255 < username.length ∨ 255 < password.length then some []
  else if (cStr username).length < 255 ∧ (cStr password).length < 255 then
    some (1 :: UInt8.ofNat username.length ::
      (copied username ++ UInt8.ofNat password.length :: copied password))
  else none

/-- The username and password, where they pass the checks made before `init`. -/
def NegotiateContext.credentials (ctx : NegotiateContext) : Option (List UInt8 × List UInt8) :=
  match ctx.socks5Username, ctx.socks5Password with
  | some username, some password =>
    if username.length ≤ 255 ∧ 1 ≤ username.length ∧
        password.length ≤ 255 ∧ 1 ≤ password.length then some (username, password)
    else none
  | _, _ => none

def processReceiveNegotiateComplete (ctx : NegotiateContext) (s : Socket) : Socket :=
  match s.currentState with
  | .loginSent =>
    let s := { s with currentState := .loginResponded }
    if s.identResp 0 ≠ 5 ∨ s.identResp 1 = 0xFF then s.closeClient
    else if s.identResp 1 = 2 then
      match ctx.credentials with
      | some (username, password) =>
        match usernameAuthInit username password with
        | none => { s with connection := .terminated }
        | some auth => if auth ≠ [] then sendUsernameAuth auth s else s
      | none => s.closeClient
    -- every other method counts as no authentication
    else sendConnect ctx s
  | .passwordSent =>
    let s := { s with currentState := .passwordResponded }
    if s.identResp 1 ≠ 0 then s.closeClient else sendConnect ctx s
  | .connectSent => if s.connectResponse 1 ≠ 0 then s.closeClient else s.startDataRelay
  | .preLogin | .loginResponded | .passwordResponded => s

section Fields
variable (identResp : Fin 2 → UInt8) (resp : Fin 10 → UInt8)

abbrev identVersion : UInt8 := identResp 0

abbrev identMethod : UInt8 := identResp 1

abbrev respVersion : UInt8 := resp 0

abbrev respReply : UInt8 := resp 1

/-- The bytes of `bind_port` in network order. -/
abbrev respBindPort : UInt8 × UInt8 := (resp 8, resp 9)

end Fields

/-- The first bytes of a structure are overwritten, the others keep what they hold. -/
def overwrite {size : ℕ} (response : Fin size → UInt8) (bytes : List UInt8) :
    Fin size → UInt8 := fun i => bytes.getD i (response i)

def Socket.recvLen (s : Socket) : ℕ :=
  match s.recvBuf with
  | .identResp => 2
  | .connectResponse => 10

def Socket.takeIn (s : Socket) (numBytes : ℕ) : Socket :=
  let s := match s.recvBuf with
    | .identResp => { s with identResp := overwrite s.identResp (s.inbound.take numBytes) }
    | .connectResponse =>
      { s with connectResponse := overwrite s.connectResponse (s.inbound.take numBytes) }
  { s with inbound := s.inbound.drop numBytes }

/-- The dispatch of the completion loop in `tcp_proxy_server::start`, for a negotiation read.
    A read of no bytes completes when the server has nothing left to send. -/
def receive (ctx : NegotiateContext) (s : Socket) (numBytes : ℕ) : Option Socket :=
  if s.connection = .negotiating ∧ numBytes ≤ s.recvLen ∧ numBytes ≤ s.inbound.length ∧
      (numBytes = 0 → s.inbound = []) then
    if numBytes = 0 then some s.closeClient
    else some (processReceiveNegotiateComplete ctx (s.takeIn numBytes))
  else none

/-- A session whose server sends `stream`, right after `remote_negotiate`. -/
def start (ctx : NegotiateContext) (stream : List UInt8) : Socket :=
  remoteNegotiate ctx
    { currentState := .preLogin
      connection := .negotiating
      identResp := ![5, 0]
      connectResponse := ![5, 0, 0, 0, 0, 0, 0, 0, 0, 0]
      recvBuf := .identResp
      sent := []
      inbound := stream }

theorem mem_methods (ctx : NegotiateContext) (method : UInt8) :
    method ∈ ctx.methods ↔ method = 0 ∨ (method = 2 ∧ ctx.socks5Username ≠ none) := by
  unfold NegotiateContext.methods
  split_ifs with h <;> simp [h]

theorem username_of_credentials {ctx : NegotiateContext} {username password : List UInt8}
    (h : ctx.credentials = some (username, password)) : 2 ∈ ctx.methods := by
  unfold NegotiateContext.credentials at h
  unfold NegotiateContext.methods
  split at h
  · next husername _ => simp [husername]
  · cases h

theorem init_of_credentials {ctx : NegotiateContext} {username password : List UInt8}
    (h : ctx.credentials = some (username, password)) :
    (cStr username).length < 255 ∧ (cStr password).length < 255 ∧
        (∃ auth, usernameAuthInit username password = some auth ∧ auth ≠ []) ∨
      ¬((cStr username).length < 255 ∧ (cStr password).length < 255) ∧
        usernameAuthInit username password = none := by
  have hlengths : ¬(255 < username.length ∨ 255 < password.length) := by
    unfold NegotiateContext.credentials at h
    grind
  unfold usernameAuthInit
  rw [if_neg hlengths]
  split_ifs with hroom
  · exact .inl ⟨hroom.1, hroom.2, _, rfl, List.cons_ne_nil _ _⟩
  · exact .inr ⟨hroom, rfl⟩

/-! ## Runs -/

def Settled (s : Socket) : Prop := s.connection ≠ .negotiating

instance (s : Socket) : Decidable (Settled s) := inferInstanceAs (Decidable (_ ≠ _))

theorem receive_settled {ctx : NegotiateContext} {s : Socket} (h : Settled s) (n : ℕ) :
    receive ctx s n = none := if_neg fun henabled => h henabled.1

theorem exec_settled {ctx : NegotiateContext} {s t : Socket} {sizes : List ℕ} (h : Settled s)
    (hrun : exec (receive ctx) s sizes = some t) : t = s ∧ sizes = [] := by
  cases sizes with
  | nil => exact ⟨(Option.some.inj hrun).symm, rfl⟩
  | cons n sizes =>
    rw [exec_cons, receive_settled h] at hrun
    cases hrun

theorem overwrite_take {size n : ℕ} {bytes : List UInt8} (response : Fin size → UInt8)
    (i : Fin size) (hle : n ≤ bytes.length) :
    overwrite response (bytes.take n) i =
      if i.val < n then bytes[i.val]?.getD 0 else response i := by
  rw [overwrite, List.getD_eq_getElem?_getD, List.getElem?_take]
  split_ifs with hi
  · rw [List.getElem?_eq_getElem (hi.trans_le hle)]
    rfl
  · rfl

theorem settled_closeClient (s : Socket) : Settled s.closeClient := by
  simp [Settled, Socket.closeClient]

theorem settled_startDataRelay (s : Socket) : Settled s.startDataRelay := by
  simp [Settled, Socket.startDataRelay]

theorem exec_closed {ctx : NegotiateContext} {s t : Socket} {sizes : List ℕ}
    (hrun : exec (receive ctx) s.closeClient sizes = some t) : t = s.closeClient :=
  (exec_settled (settled_closeClient s) hrun).1

/-- A run that settles takes a receive first, of nothing only where nothing is left. -/
theorem first_receive {ctx : NegotiateContext} {s t : Socket} {sizes : List ℕ}
    (hs : ¬Settled s) (ht : Settled t) (hrun : exec (receive ctx) s sizes = some t) :
    ∃ n rest, sizes = n :: rest ∧ n ≤ s.recvLen ∧ n ≤ s.inbound.length ∧
      ((n = 0 ∧ s.inbound = [] ∧ t = s.closeClient) ∨
        (1 ≤ n ∧ exec (receive ctx)
          (processReceiveNegotiateComplete ctx (s.takeIn n)) rest = some t)) := by
  cases sizes with
  | nil => exact absurd ht (Option.some.inj hrun ▸ hs)
  | cons n rest =>
    obtain ⟨u, hu, hrest⟩ := Option.bind_eq_some_iff.mp hrun
    unfold receive at hu
    split_ifs at hu with henabled hzero
    · obtain rfl := Option.some.inj hu
      exact ⟨n, rest, rfl, henabled.2.1, henabled.2.2.1,
        .inl ⟨hzero, henabled.2.2.2 hzero, exec_closed hrest⟩⟩
    · obtain rfl := Option.some.inj hu
      exact ⟨n, rest, rfl, henabled.2.1, henabled.2.2.1, .inr ⟨by omega, hrest⟩⟩

/-! ## Every negotiation ends -/

def Posted (s : Socket) : Prop :=
  Settled s ∨ s.currentState = .loginSent ∨ s.currentState = .passwordSent ∨
    s.currentState = .connectSent

def receivesFrom : Socks5State → ℕ
  | .loginSent => 3
  | .passwordSent => 2
  | _ => 1

def remaining (s : Socket) : ℕ :=
  if s.connection = .negotiating then receivesFrom s.currentState else 0

theorem remaining_settled {s : Socket} (h : Settled s) : remaining s = 0 := if_neg h

theorem remaining_negotiating {s : Socket} (h : ¬Settled s) :
    remaining s = receivesFrom s.currentState := if_pos (not_not.mp h)

theorem remaining_le (s : Socket) : remaining s ≤ receivesFrom s.currentState := by
  by_cases hs : Settled s
  · rw [remaining_settled hs]
    exact Nat.zero_le _
  · exact (remaining_negotiating hs).le

theorem descends_of_settled {s t : Socket} (hs : ¬Settled s) (ht : Settled t) :
    Posted t ∧ remaining t < remaining s := by
  refine ⟨.inl ht, ?_⟩
  rw [remaining_settled ht, remaining_negotiating hs]
  unfold receivesFrom
  split <;> decide

theorem process_descends {ctx : NegotiateContext} {s : Socket} (hs : ¬Settled s)
    (h : Posted s) :
    Posted (processReceiveNegotiateComplete ctx s) ∧
      remaining (processReceiveNegotiateComplete ctx s) < remaining s := by
  have hend : ∀ t, Settled t → Posted t ∧ remaining t < remaining s := fun t ht =>
    descends_of_settled hs ht
  have hconnect : ∀ u, 2 ≤ remaining s →
      Posted (sendConnect ctx u) ∧ remaining (sendConnect ctx u) < remaining s := fun u htwo =>
    ⟨.inr (.inr (.inr rfl)), (remaining_le (sendConnect ctx u)).trans_lt htwo⟩
  obtain hstate | hstate | hstate := h.resolve_left hs
  · have hthree : remaining s = 3 := by rw [remaining_negotiating hs, hstate]; rfl
    simp only [processReceiveNegotiateComplete, hstate]
    split_ifs
    · exact hend _ (settled_closeClient _)
    · cases hcredentials : ctx.credentials with
      | none => exact hend _ (settled_closeClient _)
      | some pair =>
        obtain ⟨username, password⟩ := pair
        obtain ⟨-, -, auth, hinit, hauth⟩ | ⟨-, hinit⟩ := init_of_credentials hcredentials
        · simp only [hinit, hauth, ne_eq, not_false_eq_true, if_true]
          refine ⟨.inr (.inr (.inl rfl)), ?_⟩
          calc
            _ ≤ receivesFrom .passwordSent := remaining_le _
            _ < remaining s := by rw [hthree]; decide
        · simp only [hinit]
          exact hend _ (by simp [Settled])
    · exact hconnect _ (by omega)
  · have htwo : remaining s = 2 := by rw [remaining_negotiating hs, hstate]; rfl
    simp only [processReceiveNegotiateComplete, hstate]
    split_ifs
    · exact hend _ (settled_closeClient _)
    · exact hconnect _ (by omega)
  · simp only [processReceiveNegotiateComplete, hstate]
    split_ifs
    · exact hend _ (settled_closeClient _)
    · exact hend _ (settled_startDataRelay _)

theorem receive_descends {ctx : NegotiateContext} {s t : Socket} {n : ℕ} (h : Posted s)
    (hstep : receive ctx s n = some t) : Posted t ∧ remaining t < remaining s := by
  unfold receive at hstep
  split_ifs at hstep with henabled hzero
  · obtain rfl := Option.some.inj hstep
    exact descends_of_settled (not_not_intro henabled.1) (settled_closeClient s)
  · obtain rfl := Option.some.inj hstep
    have hsame : (s.takeIn n).connection = s.connection ∧
        (s.takeIn n).currentState = s.currentState := by
      unfold Socket.takeIn
      split <;> exact ⟨rfl, rfl⟩
    have hs : ¬Settled (s.takeIn n) := not_not_intro (hsame.1.trans henabled.1)
    have hposted : Posted (s.takeIn n) := by
      unfold Posted Settled
      rw [hsame.1, hsame.2]
      exact h
    have hremaining : remaining (s.takeIn n) = remaining s := by
      simp only [remaining, hsame]
    exact hremaining ▸ process_descends hs hposted

theorem run_descends {ctx : NegotiateContext} {s t : Socket} {sizes : List ℕ} (h : Posted s)
    (hrun : exec (receive ctx) s sizes = some t) :
    Posted t ∧ sizes.length + remaining t ≤ remaining s := by
  induction sizes generalizing s with
  | nil =>
    obtain rfl := Option.some.inj hrun
    exact ⟨h, by simp⟩
  | cons n sizes ih =>
    obtain ⟨u, hu, hrest⟩ := Option.bind_eq_some_iff.mp hrun
    obtain ⟨hposted, hless⟩ := receive_descends h hu
    obtain ⟨hlast, hlength⟩ := ih hposted hrest
    refine ⟨hlast, ?_⟩
    rw [List.length_cons]
    omega

theorem receive_enabled {ctx : NegotiateContext} {s : Socket} (h : ¬Settled s) :
    ∃ n t, receive ctx s n = some t := by
  refine ⟨min s.recvLen s.inbound.length, ?_⟩
  have henabled : s.connection = .negotiating ∧ min s.recvLen s.inbound.length ≤ s.recvLen ∧
      min s.recvLen s.inbound.length ≤ s.inbound.length ∧
      (min s.recvLen s.inbound.length = 0 → s.inbound = []) := by
    refine ⟨not_not.mp h, min_le_left _ _, min_le_right _ _, fun hzero => ?_⟩
    have hlen : 0 < s.recvLen := by
      unfold Socket.recvLen
      split <;> decide
    exact List.length_eq_zero_iff.mp (by omega)
  unfold receive
  rw [if_pos henabled]
  split_ifs
  · exact ⟨_, rfl⟩
  · exact ⟨_, rfl⟩

theorem exists_settled {ctx : NegotiateContext} {s : Socket} (h : Posted s) :
    ∃ more t, exec (receive ctx) s more = some t ∧ Settled t := by
  induction hn : remaining s using Nat.strong_induction_on generalizing s with
  | _ n ih =>
    by_cases hs : Settled s
    · exact ⟨[], s, rfl, hs⟩
    · obtain ⟨size, u, hu⟩ := receive_enabled hs
      obtain ⟨hposted, hless⟩ := receive_descends h hu
      obtain ⟨more, t, hrun, ht⟩ := ih (remaining u) (hn ▸ hless) hposted rfl
      exact ⟨size :: more, t, Option.bind_eq_some_iff.mpr ⟨u, hu, hrun⟩, ht⟩

/-- However the stream has been cut so far, the negotiation can be brought to its end, and
    it takes at most three receives. -/
theorem negotiation_ends {ctx : NegotiateContext} {stream : List UInt8} {sizes : List ℕ}
    {s : Socket} (hrun : exec (receive ctx) (start ctx stream) sizes = some s) :
    sizes.length ≤ 3 ∧ ∃ more t,
      exec (receive ctx) (start ctx stream) (sizes ++ more) = some t ∧ Settled t := by
  have hstart : Posted (start ctx stream) := .inr (.inl rfl)
  obtain ⟨hposted, hlength⟩ := run_descends hstart hrun
  obtain ⟨more, t, hmore, ht⟩ := exists_settled hposted
  have hthree : remaining (start ctx stream) = 3 := rfl
  exact ⟨by omega, more, t, exec_append hrun hmore, ht⟩

end ProxySwitch.SocksNegotiation
