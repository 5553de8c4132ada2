import ProxySwitch.SocksHandshake
import ProxySwitch.SocksNegotiation

set_option autoImplicit false

namespace ProxySwitch.SocksFraming
open SocksHandshake SocksNegotiation TransitionRuns

def Refused (ctx : NegotiateContext) : List UInt8 → Prop
  | version :: method :: _ => ¬(version = 5 ∧ method ∈ ctx.methods)
  | _ => False

def Unconnected (s : Socket) : Prop :=
  ∀ addressType address port, Request.connect addressType address port ∉ s.sent

structure Follows (ctx : NegotiateContext) (stream : List UInt8) (s : Socket) : Prop where
  relays : s.connection = .relaying ↔ ∃ handshake data, stream = handshake ++ data ∧
    Handshake ctx.methods handshake
  afterReply : ∀ handshake data, stream = handshake ++ data → Handshake ctx.methods handshake →
    s.inbound = data
  closes : (¬∃ handshake data, stream = handshake ++ data ∧ Handshake ctx.methods handshake) →
    s.connection = .closed
  refusedUnconnected : Refused ctx stream → Unconnected s

/-- `Follows` for a stream whose handshake ends after `expected` bytes, if it has one. -/
def Answers (stream : List UInt8) (expected : Option ℕ) (s : Socket) : Prop :=
  match expected with
  | some k => s.connection = .relaying ∧ s.inbound = stream.drop k
  | none => s.connection = .closed

theorem follows_iff (ctx : NegotiateContext) (stream : List UInt8) (s : Socket) :
    Follows ctx stream s ↔
      Answers stream (accepted ctx.methods stream) s ∧ (Refused ctx stream → Unconnected s) := by
  cases haccepted : accepted ctx.methods stream with
  | some k =>
    obtain ⟨handshake, data, rfl, hhandshake, rfl⟩ :=
      (accepted_eq_some_iff ctx.methods stream k).mp haccepted
    constructor
    · intro h
      refine ⟨⟨h.relays.mpr ⟨handshake, data, rfl, hhandshake⟩, ?_⟩, h.refusedUnconnected⟩
      rw [List.drop_left, h.afterReply handshake data rfl hhandshake]
    · rintro ⟨⟨hrelays, hinbound⟩, hrefused⟩
      refine ⟨⟨fun _ => ⟨handshake, data, rfl, hhandshake⟩, fun _ => hrelays⟩, ?_,
        fun hnone => absurd ⟨handshake, data, rfl, hhandshake⟩ hnone, hrefused⟩
      intro other rest hsplit hother
      -- the handshake of a stream is unique: its length is read off the stream
      have hlength := (accepted_eq_some_iff ctx.methods _ _).mpr ⟨other, rest, hsplit, hother, rfl⟩
      rw [haccepted] at hlength
      rw [hinbound, Option.some.inj hlength, hsplit, List.drop_left]
  | none =>
    have hnone : ¬∃ handshake data, stream = handshake ++ data ∧
        Handshake ctx.methods handshake := by
      rintro ⟨handshake, data, hsplit, hhandshake⟩
      have hsome := (accepted_eq_some_iff ctx.methods stream _).mpr
        ⟨handshake, data, hsplit, hhandshake, rfl⟩
      rw [haccepted] at hsome
      cases hsome
    constructor
    · intro h
      exact ⟨h.closes hnone, h.refusedUnconnected⟩
    · rintro ⟨hclosed, hrefused⟩
      refine ⟨⟨fun hrelays => ?_, fun h => absurd h hnone⟩,
        fun handshake data hsplit hhandshake => absurd ⟨handshake, data, hsplit, hhandshake⟩ hnone,
        fun _ => hclosed, hrefused⟩
      rw [show s.connection = .closed from hclosed] at hrelays
      cases hrelays

theorem answers_of_closed {s : Socket} (h : s.connection = .closed) (stream : List UInt8)
    (expected : Option ℕ) : Answers stream expected s ↔ expected = none := by
  cases expected with
  | none => simp [Answers, h]
  | some k => simp [Answers, h]

theorem answers_append (read rest : List UInt8) (expected : Option ℕ) (s : Socket) :
    Answers (read ++ rest) (expected.map (read.length + ·)) s ↔ Answers rest expected s := by
  cases expected with
  | none => rfl
  | some k => simp only [Answers, Option.map_some, List.drop_length_add_append]

theorem follows_offered {ctx : NegotiateContext} {method : UInt8} (h : method ∈ ctx.methods)
    (rest : List UInt8) (s : Socket) :
    Follows ctx (5 :: method :: rest) s ↔ Answers rest (answer method rest) s := by
  have hnot : ¬Refused ctx (5 :: method :: rest) := not_not_intro ⟨rfl, h⟩
  have haccepted : accepted ctx.methods (5 :: method :: rest) =
      (answer method rest).map (2 + ·) := if_pos ⟨rfl, h⟩
  rw [follows_iff, haccepted, and_iff_left fun hrefused => absurd hrefused hnot]
  exact answers_append [5, method] _ _ _

structure AwaitsReply (s : Socket) : Prop where
  state : s.currentState = .connectSent
  connection : s.connection = .negotiating
  recvBuf : s.recvBuf = .connectResponse
  reply : s.connectResponse 1 = 0

theorem awaitsReply_sendConnect {ctx : NegotiateContext} {s : Socket}
    (hs : s.connection = .negotiating) (hreply : s.connectResponse 1 = 0) :
    AwaitsReply (sendConnect ctx s) := ⟨rfl, hs, rfl, hreply⟩

theorem process_reply {ctx : NegotiateContext} {s : Socket} {n : ℕ} (h : AwaitsReply s)
    (hpos : 1 ≤ n) (hle : n ≤ s.inbound.length) :
    processReceiveNegotiateComplete ctx (s.takeIn n) =
      if n = 1 ∨ s.inbound[1]? = some 0 then (s.takeIn n).startDataRelay
      else (s.takeIn n).closeClient := by
  have hstate : (s.takeIn n).currentState = .connectSent := by
    simp [Socket.takeIn, h.recvBuf, h.state]
  have hreply : (s.takeIn n).connectResponse 1 = if n = 1 then 0 else s.inbound[1]?.getD 0 := by
    have hbyte := overwrite_take s.connectResponse 1 hle
    simp only [Socket.takeIn, h.recvBuf, hbyte, h.reply, Fin.val_one]
    grind
  simp only [processReceiveNegotiateComplete, hstate, hreply]
  grind

/-- A reply counts as a success where its code is 0 or is not received at all. -/
def TakenAsSuccess (bytes : List UInt8) (n : ℕ) : Prop :=
  bytes ≠ [] ∧ (n = 1 ∨ bytes[1]? = some 0)

instance (bytes : List UInt8) (n : ℕ) : Decidable (TakenAsSuccess bytes n) :=
  inferInstanceAs (Decidable (_ ∧ _))

theorem reply_run {ctx : NegotiateContext} {s t : Socket} {sizes : List ℕ} (h : AwaitsReply s)
    (ht : Settled t) (hrun : exec (receive ctx) s sizes = some t) :
    ∃ n rest, sizes = n :: rest ∧ n ≤ s.inbound.length ∧ (s.inbound ≠ [] → 1 ≤ n) ∧
      t.sent = s.sent ∧
      if TakenAsSuccess s.inbound n then t.connection = .relaying ∧ t.inbound = s.inbound.drop n
      else t.connection = .closed := by
  have hs : ¬Settled s := not_not_intro h.connection
  obtain ⟨n, rest, rfl, -, hle, ⟨-, hnil, rfl⟩ | ⟨hpos, hrest⟩⟩ := first_receive hs ht hrun
  · refine ⟨n, rest, rfl, hle, absurd hnil, rfl, ?_⟩
    rw [if_neg fun htaken => htaken.1 hnil]
    rfl
  · have hne : s.inbound ≠ [] := fun hnil => by rw [hnil, List.length_nil] at hle; omega
    refine ⟨n, rest, rfl, hle, fun _ => hpos, ?_⟩
    rw [process_reply h hpos hle] at hrest
    split_ifs at hrest with htaken
    · obtain ⟨rfl, -⟩ := exec_settled (settled_startDataRelay _) hrest
      rw [if_pos ⟨hne, htaken⟩]
      simp [Socket.startDataRelay, Socket.takeIn, h.recvBuf]
    · obtain rfl := exec_closed hrest
      rw [if_neg fun h' => htaken h'.2]
      simp [Socket.closeClient, Socket.takeIn, h.recvBuf]

/-- A receive of the reply ends where the reply does, or shows that there is none. -/
def ReplyFits (bytes : List UInt8) (expected : Option ℕ) (sizes : List ℕ) : Prop :=
  match expected with
  | some k => sizes.headD 0 = k ∧ bytes[1]? = some 0
  | none => bytes = [] ∨ (sizes.headD 0 ≠ 1 ∧ bytes[1]? ≠ some 0)

theorem answers_iff_replyFits {ctx : NegotiateContext} {s t : Socket} {sizes : List ℕ}
    (h : AwaitsReply s) (ht : Settled t) (hrun : exec (receive ctx) s sizes = some t)
    (expected : Option ℕ) (hk : ∀ k, expected = some k → 2 ≤ k ∧ k ≤ s.inbound.length) :
    Answers s.inbound expected t ↔ ReplyFits s.inbound expected sizes := by
  obtain ⟨n, rest, rfl, hle, hpos, -, hend⟩ := reply_run h ht hrun
  cases expected with
  | some k =>
    obtain ⟨htwo, hlong⟩ := hk k rfl
    have hne : s.inbound ≠ [] := fun hnil => by rw [hnil, List.length_nil] at hlong; omega
    simp only [Answers, ReplyFits, List.headD_cons]
    split_ifs at hend with htaken
    · rw [hend.1, hend.2, List.drop_eq_drop_iff, Nat.min_eq_left hle, Nat.min_eq_left hlong]
      constructor
      · rintro ⟨-, rfl⟩
        exact ⟨rfl, htaken.2.resolve_left (by omega)⟩
      · rintro ⟨rfl, -⟩
        exact ⟨rfl, rfl⟩
    · rw [hend]
      constructor
      · rintro ⟨hrelays, -⟩
        cases hrelays
      · rintro ⟨-, hcode⟩
        exact absurd ⟨hne, .inr hcode⟩ htaken
  | none =>
    simp only [Answers, ReplyFits, List.headD_cons]
    split_ifs at hend with htaken
    · rw [hend.1]
      constructor
      · intro hclosed
        cases hclosed
      · rintro (hnil | ⟨hlong, hcode⟩)
        · exact absurd hnil htaken.1
        · exact absurd htaken.2 (not_or_intro hlong hcode)
    · refine iff_of_true hend ?_
      by_cases hnil : s.inbound = []
      · exact .inl hnil
      · exact .inr (not_or.mp fun htaken' => htaken ⟨hnil, htaken'⟩)

structure AwaitsStatus (s : Socket) : Prop where
  state : s.currentState = .passwordSent
  connection : s.connection = .negotiating
  recvBuf : s.recvBuf = .identResp
  method : s.identResp 1 = 2
  reply : s.connectResponse 1 = 0

/-- Both bytes of the status have to be received, and then the reply as `ReplyFits` has it. -/
def StatusFits (rest : List UInt8) : List ℕ → Prop
  | n :: sizes =>
    if n = 1 then statusReply rest = none
    else ∀ status reply, rest.tail = status :: reply → status = 0 →
      ReplyFits reply (connectReply reply) sizes
  | [] => True

theorem process_status {ctx : NegotiateContext} {s : Socket} {n : ℕ} (h : AwaitsStatus s)
    (hle : n ≤ s.inbound.length) :
    processReceiveNegotiateComplete ctx (s.takeIn n) =
      if 2 ≤ n ∧ s.inbound[1]? = some 0 then
        sendConnect ctx { s.takeIn n with currentState := .passwordResponded }
      else { s.takeIn n with currentState := .passwordResponded }.closeClient := by
  have hstate : (s.takeIn n).currentState = .passwordSent := by
    simp [Socket.takeIn, h.recvBuf, h.state]
  have hmethod : (s.takeIn n).identResp 1 = if 2 ≤ n then s.inbound[1]?.getD 0 else 2 := by
    have hbyte := overwrite_take s.identResp 1 hle
    simp only [Socket.takeIn, h.recvBuf, hbyte, h.method, Fin.val_one]
    grind
  simp only [processReceiveNegotiateComplete, hstate, hmethod]
  grind

theorem answers_iff_statusFits {ctx : NegotiateContext} {s t : Socket} {sizes : List ℕ}
    (h : AwaitsStatus s) (ht : Settled t) (hrun : exec (receive ctx) s sizes = some t) :
    Answers s.inbound (statusReply s.inbound) t ↔ StatusFits s.inbound sizes := by
  have hs : ¬Settled s := not_not_intro h.connection
  obtain ⟨n, rest, rfl, hlen, hle, ⟨rfl, hnil, rfl⟩ | ⟨hpos, hrest⟩⟩ := first_receive hs ht hrun
  · rw [answers_of_closed rfl]
    simp [StatusFits, statusReply, hnil]
  · rw [process_status h hle] at hrest
    have hbuf : s.recvLen = 2 := by simp [Socket.recvLen, h.recvBuf]
    obtain rfl | rfl : n = 1 ∨ n = 2 := by omega
    · rw [if_neg (by omega)] at hrest
      obtain rfl := exec_closed hrest
      rw [answers_of_closed rfl]
      rfl
    · obtain ⟨version, status, reply, hinbound⟩ := exists_two hle
      simp only [hinbound, StatusFits, statusReply]
      by_cases hstatus : status = 0
      · rw [if_pos (by simp [hinbound, hstatus])] at hrest
        have hawaits : AwaitsReply (sendConnect ctx
            { s.takeIn 2 with currentState := .passwordResponded }) := by
          refine awaitsReply_sendConnect ?_ ?_
          · simp [Socket.takeIn, h.recvBuf, h.connection]
          · simp [Socket.takeIn, h.recvBuf, h.reply]
        have hleft : (sendConnect ctx
            { s.takeIn 2 with currentState := .passwordResponded }).inbound = reply := by
          simp [sendConnect, Socket.takeIn, h.recvBuf, hinbound]
        have hfits := answers_iff_replyFits hawaits ht hrest (connectReply reply)
          fun k hk => hleft ▸ connectReply_bounds hk
        rw [hleft] at hfits
        calc
          _ ↔ Answers ([version, status] ++ reply) ((connectReply reply).map (2 + ·)) t := by
            rw [if_pos hstatus]; rfl
          _ ↔ Answers reply (connectReply reply) t := answers_append _ _ _ _
          _ ↔ ReplyFits reply (connectReply reply) rest := hfits
          _ ↔ _ := by simp [hstatus]
      · rw [if_neg (by simp [hinbound, hstatus])] at hrest
        obtain rfl := exec_closed hrest
        rw [answers_of_closed rfl]
        simp [hstatus]

/-- The socket when the selection is being looked at, after a receive of `n` bytes. -/
def responded (ctx : NegotiateContext) (stream : List UInt8) (n : ℕ) : Socket :=
  { (start ctx stream).takeIn n with currentState := .loginResponded }

/-- A version alone is read as a choice of no authentication: the method is still zero. -/
theorem process_short (ctx : NegotiateContext) (version : UInt8) (rest : List UInt8) :
    processReceiveNegotiateComplete ctx ((start ctx (version :: rest)).takeIn 1) =
      if version = 5 then sendConnect ctx (responded ctx (version :: rest) 1)
      else (responded ctx (version :: rest) 1).closeClient := by
  have hversion : ((start ctx (version :: rest)).takeIn 1).identResp 0 = version := rfl
  have hmethod : ((start ctx (version :: rest)).takeIn 1).identResp 1 = 0 := rfl
  simp only [processReceiveNegotiateComplete,
    show ((start ctx (version :: rest)).takeIn 1).currentState = .loginSent from rfl,
    hversion, hmethod]
  split_ifs <;> simp_all [responded]

theorem process_full (ctx : NegotiateContext) (version method : UInt8) (rest : List UInt8) :
    processReceiveNegotiateComplete ctx ((start ctx (version :: method :: rest)).takeIn 2) =
      let s := responded ctx (version :: method :: rest) 2
      if version ≠ 5 ∨ method = 0xFF then s.closeClient
      else if method = 2 then
        match ctx.credentials with
        | some (username, password) =>
          match usernameAuthInit username password with
          | none => { s with connection := .terminated }
          | some auth => if auth ≠ [] then sendUsernameAuth auth s else s
        | none => s.closeClient
      else sendConnect ctx s := rfl

theorem sendConnect_run {ctx : NegotiateContext} {s t : Socket} {sizes : List ℕ}
    (hs : s.connection = .negotiating) (hreply : s.connectResponse 1 = 0) (ht : Settled t)
    (hrun : exec (receive ctx) (sendConnect ctx s) sizes = some t) :
    ¬Unconnected t ∧ ∀ expected, (∀ k, expected = some k → 2 ≤ k ∧ k ≤ s.inbound.length) →
      (Answers s.inbound expected t ↔ ReplyFits s.inbound expected sizes) := by
  have hawaits : AwaitsReply (sendConnect ctx s) := awaitsReply_sendConnect hs hreply
  constructor
  · obtain ⟨n, rest, -, -, -, hsent, -⟩ := reply_run hawaits ht hrun
    intro hnone
    refine hnone 1 ctx.remoteAddress ctx.remotePort ?_
    rw [hsent]
    exact List.mem_append_right _ (List.mem_singleton.mpr rfl)
  · have hfits := answers_iff_replyFits hawaits ht hrun
    exact hfits

theorem follows_of_refusal {ctx : NegotiateContext} {stream : List UInt8} {s : Socket}
    (hclosed : s.connection = .closed) (hsent : Unconnected s)
    (hnone : accepted ctx.methods stream = none) : Follows ctx stream s :=
  (follows_iff ctx stream s).mpr ⟨(answers_of_closed hclosed _ _).mpr hnone, fun _ => hsent⟩

theorem unconnected_start (ctx : NegotiateContext) (stream : List UInt8) :
    Unconnected (start ctx stream) := by
  simp [Unconnected, start, remoteNegotiate]

theorem unconnected_responded (ctx : NegotiateContext) (stream : List UInt8) (n : ℕ) :
    Unconnected (responded ctx stream n).closeClient := unconnected_start ctx stream

theorem follows_short {ctx : NegotiateContext} {version method : UInt8} {rest : List UInt8}
    {sizes : List ℕ} {s : Socket} (hs : Settled s)
    (hrun : exec (receive ctx) (processReceiveNegotiateComplete ctx
      ((start ctx (version :: method :: rest)).takeIn 1)) sizes = some s) :
    Follows ctx (version :: method :: rest) s ↔
      (version = 5 → method ∈ ctx.methods ∧
        ReplyFits (method :: rest) ((answer method rest).map (1 + ·)) sizes) := by
  rw [process_short] at hrun
  by_cases hversion : version = 5
  · rw [if_pos hversion] at hrun
    subst hversion
    obtain ⟨hconnected, hfits⟩ := sendConnect_run rfl rfl hs hrun
    by_cases hoffered : method ∈ ctx.methods
    · have hbounds : ∀ k, (answer method rest).map (1 + ·) = some k →
          2 ≤ k ∧ k ≤ (method :: rest).length := by
        intro k hk
        obtain ⟨n, hn, rfl⟩ := Option.map_eq_some_iff.mp hk
        have hn := answer_bounds hn
        simp only [List.length_cons]
        omega
      calc
        _ ↔ Answers rest (answer method rest) s := follows_offered hoffered rest s
        _ ↔ Answers (method :: rest) ((answer method rest).map (1 + ·)) s :=
          (answers_append [method] _ _ _).symm
        _ ↔ ReplyFits (method :: rest) ((answer method rest).map (1 + ·)) sizes :=
          hfits _ hbounds
        _ ↔ _ := by simp [hoffered]
    · refine iff_of_false ?_ fun h => hoffered (h rfl).1
      exact fun h => hconnected (h.refusedUnconnected fun hok => hoffered hok.2)
  · rw [if_neg hversion] at hrun
    obtain rfl := exec_closed hrun
    refine iff_of_true ?_ fun h => absurd h hversion
    exact follows_of_refusal rfl (unconnected_responded ctx _ _)
      (if_neg fun hok => hversion hok.1)

theorem follows_alone {ctx : NegotiateContext} {version : UInt8} {sizes : List ℕ} {s : Socket}
    (hs : Settled s)
    (hrun : exec (receive ctx) (processReceiveNegotiateComplete ctx
      ((start ctx [version]).takeIn 1)) sizes = some s) : Follows ctx [version] s := by
  rw [process_short] at hrun
  by_cases hversion : version = 5
  · rw [if_pos hversion] at hrun
    obtain ⟨-, hfits⟩ := sendConnect_run rfl rfl hs hrun
    have hclosed : Answers [] none s := (hfits none fun k hk => by cases hk).mpr (.inl rfl)
    exact (follows_iff ctx [version] s).mpr ⟨hclosed, False.elim⟩
  · rw [if_neg hversion] at hrun
    obtain rfl := exec_closed hrun
    exact follows_of_refusal rfl (unconnected_responded ctx _ _) rfl

/-- Where both bytes of the selection are received at once. -/
def SelectionFits (ctx : NegotiateContext) (method : UInt8) (rest : List UInt8)
    (sizes : List ℕ) : Prop :=
  if method = 0 then ReplyFits rest (connectReply rest) sizes
  else if method = 2 then
    match ctx.credentials with
    | some (username, password) =>
      (cStr username).length < 255 ∧ (cStr password).length < 255 ∧ StatusFits rest sizes
    | none => ctx.socks5Username ≠ none → statusReply rest = none
  else method = 0xFF

theorem follows_password {ctx : NegotiateContext} {rest : List UInt8} {sizes : List ℕ}
    {auth : List UInt8} {s : Socket} (hoffered : 2 ∈ ctx.methods) (hs : Settled s)
    (hrun : exec (receive ctx)
      (sendUsernameAuth auth (responded ctx (5 :: 2 :: rest) 2)) sizes = some s) :
    Follows ctx (5 :: 2 :: rest) s ↔ StatusFits rest sizes := by
  have hawaits : AwaitsStatus (sendUsernameAuth auth (responded ctx (5 :: 2 :: rest) 2)) :=
    ⟨rfl, rfl, rfl, rfl, rfl⟩
  have hfits := answers_iff_statusFits hawaits hs hrun
  calc
    _ ↔ Answers rest (answer 2 rest) s := follows_offered hoffered rest s
    _ ↔ StatusFits rest sizes := hfits

theorem follows_unusable {ctx : NegotiateContext} (rest : List UInt8) :
    Follows ctx (5 :: 2 :: rest) (responded ctx (5 :: 2 :: rest) 2).closeClient ↔
      (ctx.socks5Username ≠ none → statusReply rest = none) := by
  have hunconnected := unconnected_responded ctx (5 :: 2 :: rest) 2
  calc
    _ ↔ accepted ctx.methods (5 :: 2 :: rest) = none := by
      rw [follows_iff, answers_of_closed rfl]
      exact and_iff_left fun _ => hunconnected
    _ ↔ _ := by
      simp [accepted, mem_methods, answer]

theorem not_follows_terminated {ctx : NegotiateContext} {stream : List UInt8} {s : Socket}
    (h : s.connection = .terminated) : ¬Follows ctx stream s := by
  rw [follows_iff]
  cases accepted ctx.methods stream with
  | none => simp [Answers, h]
  | some k => simp [Answers, h]

theorem follows_username {ctx : NegotiateContext} {rest : List UInt8} {sizes : List ℕ}
    {s : Socket} (hs : Settled s)
    (hrun : exec (receive ctx) (processReceiveNegotiateComplete ctx
      ((start ctx (5 :: 2 :: rest)).takeIn 2)) sizes = some s) :
    Follows ctx (5 :: 2 :: rest) s ↔ SelectionFits ctx 2 rest sizes := by
  simp only [process_full, ne_eq, not_true_eq_false, false_or,
    show (2 : UInt8) ≠ 0xFF by decide, if_false, if_true] at hrun
  unfold SelectionFits
  rw [if_neg (by decide), if_pos rfl]
  cases hcredentials : ctx.credentials with
  | none =>
    rw [hcredentials] at hrun
    obtain rfl := exec_closed hrun
    exact follows_unusable rest
  | some pair =>
    obtain ⟨username, password⟩ := pair
    simp only [hcredentials] at hrun
    obtain ⟨hname, hword, auth, hinit, hauth⟩ | ⟨hlong, hinit⟩ := init_of_credentials hcredentials
    · simp only [hinit, hauth, not_false_eq_true, if_true] at hrun
      rw [follows_password (username_of_credentials hcredentials) hs hrun]
      simp [hname, hword]
    · simp only [hinit] at hrun
      obtain ⟨rfl, -⟩ := exec_settled (by simp [Settled]) hrun
      exact iff_of_false (not_follows_terminated rfl) fun h => hlong ⟨h.1, h.2.1⟩

/-- A method the client does not know is answered with CONNECT like an accepted one. -/
theorem follows_other {ctx : NegotiateContext} {method : UInt8} {rest : List UInt8}
    {sizes : List ℕ} {s : Socket} (htwo : method ≠ 2) (hnone : method ≠ 0xFF) (hs : Settled s)
    (hrun : exec (receive ctx) (processReceiveNegotiateComplete ctx
      ((start ctx (5 :: method :: rest)).takeIn 2)) sizes = some s) :
    Follows ctx (5 :: method :: rest) s ↔ SelectionFits ctx method rest sizes := by
  simp only [process_full, ne_eq, not_true_eq_false, false_or, hnone, htwo, if_false] at hrun
  obtain ⟨hconnected, hfits⟩ := sendConnect_run rfl rfl hs hrun
  by_cases hzero : method = 0
  · subst hzero
    have hoffered : (0 : UInt8) ∈ ctx.methods := (mem_methods ctx 0).mpr (.inl rfl)
    calc
      _ ↔ Answers rest (answer 0 rest) s := follows_offered hoffered rest s
      _ ↔ ReplyFits rest (connectReply rest) sizes := hfits _ fun k hk => connectReply_bounds hk
      _ ↔ SelectionFits ctx 0 rest sizes := Iff.rfl
  · have hrefused : Refused ctx (5 :: method :: rest) := fun hok => by
      simpa [hzero, htwo] using (mem_methods ctx method).mp hok.2
    refine iff_of_false (fun h => hconnected (h.refusedUnconnected hrefused)) ?_
    simp [SelectionFits, hzero, htwo, hnone]

theorem follows_full {ctx : NegotiateContext} {version method : UInt8} {rest : List UInt8}
    {sizes : List ℕ} {s : Socket} (hs : Settled s)
    (hrun : exec (receive ctx) (processReceiveNegotiateComplete ctx
      ((start ctx (version :: method :: rest)).takeIn 2)) sizes = some s) :
    Follows ctx (version :: method :: rest) s ↔
      (version = 5 → SelectionFits ctx method rest sizes) := by
  by_cases hclose : version ≠ 5 ∨ method = 0xFF
  · rw [process_full, if_pos hclose] at hrun
    obtain rfl := exec_closed hrun
    refine iff_of_true (follows_of_refusal rfl (unconnected_responded ctx _ _) ?_) fun hversion => ?_
    · refine if_neg fun hok => ?_
      have hmethod := (mem_methods ctx method).mp hok.2
      rcases hclose with hversion | rfl
      · exact hversion hok.1
      · simp at hmethod
    · obtain rfl := hclose.resolve_left (not_not_intro hversion)
      rfl
  · obtain ⟨hversion, hnone⟩ := not_or.mp hclose
    obtain rfl := not_not.mp hversion
    rw [forall_prop_of_true rfl]
    by_cases htwo : method = 2
    · subst htwo
      exact follows_username hs hrun
    · exact follows_other htwo hnone hs hrun

/-- The receives cut the stream where the messages of the server end, as far as the code
    depends on it. The first one has both bytes of the selection, and goes on with
    `SelectionFits`; if it has the version only, the second one reads the method as the
    version of a reply. -/
def Fits (ctx : NegotiateContext) : List UInt8 → List ℕ → Prop
  | version :: method :: rest, n :: sizes =>
    version = 5 →
      if n = 1 then
        method ∈ ctx.methods ∧
          ReplyFits (method :: rest) ((answer method rest).map (1 + ·)) sizes
      else SelectionFits ctx method rest sizes
  | _, _ => True

theorem follows_iff_fits (ctx : NegotiateContext) (stream : List UInt8) (sizes : List ℕ)
    (s : Socket) (hrun : exec (receive ctx) (start ctx stream) sizes = some s) (hs : Settled s) :
    Follows ctx stream s ↔ Fits ctx stream sizes := by
  have hstart : ¬Settled (start ctx stream) := not_not_intro rfl
  obtain ⟨n, rest, rfl, hlen, hle, ⟨rfl, hnil, rfl⟩ | ⟨hpos, hrest⟩⟩ :=
    first_receive hstart hs hrun
  · obtain rfl : stream = [] := hnil
    exact iff_of_true (follows_of_refusal rfl (unconnected_start ctx []) rfl) trivial
  · match stream with
    | [] => exact absurd hle (Nat.not_le_of_lt hpos)
    | [version] =>
      obtain rfl : n = 1 := le_antisymm hle hpos
      exact iff_of_true (follows_alone hs hrest) trivial
    | version :: method :: bytes =>
      have hbuf : n ≤ 2 := hlen
      obtain rfl | rfl : n = 1 ∨ n = 2 := by omega
      · rw [follows_short hs hrest]
        rfl
      · rw [follows_full hs hrest]
        rfl

def anonymous : NegotiateContext := ⟨0xC0A80001, 443, none, none⟩

def namedHost : List UInt8 := [5, 0, 5, 0, 0, 3, 5, 104, 111, 115, 116, 115, 0, 80, 72, 105]

-- the ten bytes of the structure end before the port does
theorem named_host_leaks_port :
    ¬∀ ctx stream sizes s, exec (receive ctx) (start ctx stream) sizes = some s → Settled s →
      Follows ctx stream s := by
  intro h
  have hfollows := h anonymous namedHost [2, 10] _ rfl (by decide)
  have hhandshake : Handshake anonymous.methods
      [5, 0, 5, 0, 0, 3, 5, 104, 111, 115, 116, 115, 0, 80] :=
    .noAuthentication _ (by decide)
      (.succeeded 0 3 _ 0 80 (.domainName 5 [104, 111, 115, 116, 115] rfl))
  exact absurd (hfollows.afterReply _ [72, 105] rfl hhandshake) (by decide)

def plainHost : List UInt8 := [5, 0, 5, 0, 0, 1, 10, 0, 0, 1, 0, 80, 72, 105]

theorem plain_host_followed :
    ∃ s, exec (receive anonymous) (start anonymous plainHost) [2, 10] = some s ∧ Settled s ∧
      Follows anonymous plainHost s := by
  refine ⟨_, rfl, by decide, (follows_iff_fits _ _ [2, 10] _ rfl (by decide)).mpr ?_⟩
  exact fun _ => ⟨rfl, rfl⟩

end ProxySwitch.SocksFraming
