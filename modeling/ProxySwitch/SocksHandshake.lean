import Mathlib.Data.Int.Notation
import Mathlib.Tactic.Common

set_option autoImplicit false

namespace ProxySwitch.SocksHandshake

inductive BoundAddress : UInt8 → List UInt8 → Prop
  | ipv4 (address : List UInt8) (h : address.length = 4) : BoundAddress 1 address
  | domainName (length : UInt8) (name : List UInt8) (h : name.length = length.toNat) :
      BoundAddress 3 (length :: name)
  | ipv6 (address : List UInt8) (h : address.length = 16) : BoundAddress 4 address

inductive ConnectReply : List UInt8 → Prop
  | succeeded (reserved addressType : UInt8) (address : List UInt8) (high low : UInt8)
      (h : BoundAddress addressType address) :
      ConnectReply (5 :: 0 :: reserved :: addressType :: (address ++ [high, low]))

inductive Handshake (offered : List UInt8) : List UInt8 → Prop
  | noAuthentication (reply : List UInt8) (mem : 0 ∈ offered) (h : ConnectReply reply) :
      Handshake offered (5 :: 0 :: reply)
  | usernamePassword (version : UInt8) (reply : List UInt8) (mem : 2 ∈ offered)
      (h : ConnectReply reply) : Handshake offered (5 :: 2 :: version :: 0 :: reply)

def boundLength (addressType : UInt8) (bound : List UInt8) : Option ℕ :=
  if addressType = 1 then some 6
  else if addressType = 3 then bound.head?.map fun length => length.toNat + 3
  else if addressType = 4 then some 18
  else none

def connectReply : List UInt8 → Option ℕ
  | version :: reply :: _ :: addressType :: bound =>
    if version = 5 ∧ reply = 0 then
      ((boundLength addressType bound).filter (· ≤ bound.length)).map (4 + ·)
    else none
  | _ => none

def statusReply : List UInt8 → Option ℕ
  | _ :: status :: rest => if status = 0 then (connectReply rest).map (2 + ·) else none
  | _ => none

def answer (method : UInt8) (rest : List UInt8) : Option ℕ :=
  if method = 0 then connectReply rest
  else if method = 2 then statusReply rest
  else none

def accepted (offered : List UInt8) : List UInt8 → Option ℕ
  | version :: method :: rest =>
    if version = 5 ∧ method ∈ offered then (answer method rest).map (2 + ·) else none
  | _ => none

theorem exists_two {bytes : List UInt8} (h : 2 ≤ bytes.length) :
    ∃ first second rest, bytes = first :: second :: rest := by
  have hpos : 0 < bytes.length := by omega
  obtain ⟨first, rest, rfl⟩ := List.exists_cons_of_length_pos hpos
  have hrest : 0 < rest.length := Nat.lt_of_succ_lt_succ h
  obtain ⟨second, rest, rfl⟩ := List.exists_cons_of_length_pos hrest
  exact ⟨first, second, rest, rfl⟩

theorem exists_port {bound : List UInt8} {n : ℕ} (h : n + 2 ≤ bound.length) :
    ∃ address high low data, bound = address ++ [high, low] ++ data ∧ address.length = n := by
  obtain ⟨high, low, data, hport⟩ := exists_two (show 2 ≤ (bound.drop n).length by grind)
  refine ⟨bound.take n, high, low, data, ?_, List.length_take_of_le (by omega)⟩
  calc
    bound = bound.take n ++ bound.drop n := (List.take_append_drop n bound).symm
    _ = bound.take n ++ [high, low] ++ data := by rw [hport]; simp

/-- The lengths are those of the addresses, where the stream holds them whole. -/
theorem boundLength_eq_some_iff (addressType : UInt8) (bound : List UInt8) (n : ℕ) :
    (boundLength addressType bound).filter (· ≤ bound.length) = some n ↔
      ∃ address high low data, BoundAddress addressType address ∧
        bound = address ++ [high, low] ++ data ∧ n = address.length + 2 := by
  simp only [Option.filter_eq_some_iff, decide_eq_true_eq]
  constructor
  · intro ⟨hn, hle⟩
    unfold boundLength at hn
    split_ifs at hn with h1 h3 h4
    · obtain rfl : 6 = n := Option.some.inj hn
      obtain ⟨address, high, low, data, hbound, hlength⟩ := exists_port hle
      exact ⟨address, high, low, data, h1 ▸ .ipv4 address hlength, hbound, by omega⟩
    · obtain ⟨length, hhead, rfl⟩ := Option.map_eq_some_iff.mp hn
      obtain ⟨rest, rfl⟩ := List.head?_eq_some_iff.mp hhead
      have hroom : length.toNat + 2 ≤ rest.length := by grind
      obtain ⟨name, high, low, data, rfl, hlength⟩ := exists_port hroom
      exact ⟨length :: name, high, low, data, h3 ▸ .domainName length name hlength, by grind,
        by grind⟩
    · obtain rfl : 18 = n := Option.some.inj hn
      obtain ⟨address, high, low, data, hbound, hlength⟩ := exists_port hle
      exact ⟨address, high, low, data, h4 ▸ .ipv6 address hlength, hbound, by omega⟩
  · rintro ⟨address, high, low, data, haddress, rfl, rfl⟩
    refine ⟨?_, by simp⟩
    cases haddress with
    | ipv4 _ h => simp [boundLength, h]
    | domainName length name h => simp [boundLength, h]
    | ipv6 _ h => simp [boundLength, h]

theorem connectReply_eq_some_iff (stream : List UInt8) (k : ℕ) :
    connectReply stream = some k ↔
      ∃ reply data, stream = reply ++ data ∧ ConnectReply reply ∧ k = reply.length := by
  constructor
  · intro h
    match stream with
    | [] | [_] | [_, _] | [_, _, _] => simp [connectReply] at h
    | version :: reply :: reserved :: addressType :: bound =>
      simp only [connectReply] at h
      split_ifs at h with hok
      obtain ⟨rfl, rfl⟩ := hok
      obtain ⟨n, hn, rfl⟩ := Option.map_eq_some_iff.mp h
      obtain ⟨address, high, low, data, haddress, rfl, rfl⟩ :=
        (boundLength_eq_some_iff addressType bound n).mp hn
      exact ⟨_, data, by simp, .succeeded reserved addressType address high low haddress,
        by simp; omega⟩
  · rintro ⟨_, data, rfl, ⟨reserved, addressType, address, high, low, haddress⟩, rfl⟩
    have hn := (boundLength_eq_some_iff addressType (address ++ [high, low] ++ data) _).mpr
      ⟨address, high, low, data, haddress, rfl, rfl⟩
    have hread : connectReply (5 :: 0 :: reserved :: addressType ::
        (address ++ [high, low] ++ data)) = some (4 + (address.length + 2)) := by
      simp only [connectReply, hn, and_self, if_true, Option.map_some]
    calc
      _ = some (4 + (address.length + 2)) := hread
      _ = _ := by simp; omega

theorem statusReply_eq_some_iff (stream : List UInt8) (k : ℕ) :
    statusReply stream = some k ↔
      ∃ version reply data, stream = version :: 0 :: reply ++ data ∧ ConnectReply reply ∧
        k = 2 + reply.length := by
  constructor
  · intro h
    match stream with
    | [] | [_] => cases h
    | version :: status :: rest =>
      simp only [statusReply] at h
      split_ifs at h with hstatus
      subst hstatus
      obtain ⟨n, hn, rfl⟩ := Option.map_eq_some_iff.mp h
      obtain ⟨reply, data, rfl, hreply, rfl⟩ := (connectReply_eq_some_iff rest n).mp hn
      exact ⟨version, reply, data, rfl, hreply, rfl⟩
  · rintro ⟨version, reply, data, rfl, hreply, rfl⟩
    have hread := (connectReply_eq_some_iff (reply ++ data) _).mpr ⟨reply, data, rfl, hreply, rfl⟩
    simp [statusReply, hread]

theorem accepted_eq_some_iff (offered : List UInt8) (stream : List UInt8) (k : ℕ) :
    accepted offered stream = some k ↔
      ∃ handshake data, stream = handshake ++ data ∧ Handshake offered handshake ∧
        k = handshake.length := by
  constructor
  · intro h
    match stream with
    | [] | [_] => cases h
    | version :: method :: rest =>
      simp only [accepted] at h
      split_ifs at h with hoffer
      obtain ⟨rfl, mem⟩ := hoffer
      obtain ⟨n, hn, rfl⟩ := Option.map_eq_some_iff.mp h
      unfold answer at hn
      split_ifs at hn with hzero htwo
      · subst hzero
        obtain ⟨reply, data, rfl, hreply, rfl⟩ := (connectReply_eq_some_iff rest n).mp hn
        exact ⟨_, data, rfl, .noAuthentication reply mem hreply, by simp; omega⟩
      · subst htwo
        obtain ⟨version, reply, data, rfl, hreply, rfl⟩ := (statusReply_eq_some_iff rest n).mp hn
        exact ⟨_, data, rfl, .usernamePassword version reply mem hreply, by simp; omega⟩
  · rintro ⟨_, data, rfl, hhandshake, rfl⟩
    cases hhandshake with
    | noAuthentication reply mem h =>
      have hread := (connectReply_eq_some_iff (reply ++ data) _).mpr ⟨reply, data, rfl, h, rfl⟩
      simp [accepted, answer, mem, hread]; omega
    | usernamePassword version reply mem h =>
      have hread := (statusReply_eq_some_iff (version :: 0 :: (reply ++ data)) _).mpr
        ⟨version, reply, data, rfl, h, rfl⟩
      simp [accepted, answer, mem, hread]; omega

theorem connectReply_bounds {bytes : List UInt8} {k : ℕ} (h : connectReply bytes = some k) :
    2 ≤ k ∧ k ≤ bytes.length := by
  obtain ⟨reply, data, rfl, hreply, rfl⟩ := (connectReply_eq_some_iff bytes k).mp h
  cases hreply with
  | succeeded => simp

theorem answer_bounds {method : UInt8} {rest : List UInt8} {k : ℕ}
    (h : answer method rest = some k) : 2 ≤ k ∧ k ≤ rest.length := by
  unfold answer at h
  split_ifs at h with hzero htwo
  · exact connectReply_bounds h
  · obtain ⟨version, reply, data, rfl, hreply, rfl⟩ := (statusReply_eq_some_iff rest k).mp h
    simp; omega

end ProxySwitch.SocksHandshake
