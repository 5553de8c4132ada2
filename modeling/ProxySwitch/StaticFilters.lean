import Mathlib.Data.Fin.Rev
import Mathlib.Data.Fin.VecNotation
import Mathlib.Logic.Function.Basic
import ProxySwitch.PacketChecksums
import ProxySwitch.TcpLocalRedirect
import ProxySwitch.TransitionRuns

set_option autoImplicit false

/-!
# The driver's format of a static filter

`to_static_filter` writes a filter into the packed structure of the driver, and `from_static_filter` reads
one back. An address is the bytes that it has in memory, in network order. The union of the IPv4 and the
IPv6 filter is kept by its bytes; both begin with `m_ValidFields`, which is a field of its own here.
-/
namespace ProxySwitch.StaticFilters
open PacketChecksums TcpLocalRedirect TransitionRuns

/-! ### Filters -/

inductive Family
  | v4
  | v6
  deriving DecidableEq

def Family.size : Family → ℕ
  | .v4 => 4
  | .v6 => 16

abbrev DWORD := BitVec 32

/-- `IPV4` and `IPV6`. -/
def Family.selector : Family → DWORD
  | .v4 => 1#32
  | .v6 => 2#32

abbrev Address (n : ℕ) := Fin n → Byte

structure IpSubnet (n : ℕ) where
  address : Address n
  mask : Address n

inductive Direction
  | inbound
  | outbound
  | both

inductive FilterAction
  | pass
  | drop
  | redirect
  | passRedirect
  | dropRedirect

@[ext] structure Filter (family : Family) where
  adapterHandle : BitVec 64
  sourceHwAddress : Option MacAddress
  destHwAddress : Option MacAddress
  etherType : Option (BitVec 16)
  sourceAddress : Option (IpSubnet family.size)
  destAddress : Option (IpSubnet family.size)
  sourcePort : Option (Port × Port)
  destPort : Option (Port × Port)
  protocol : Option Byte
  direction : Direction
  action : FilterAction

/-! ### The structure of the driver -/

structure DataLinkFilter where
  unionSelector : DWORD
  validFields : DWORD
  srcAddress : MacAddress
  destAddress : MacAddress
  protocol : BitVec 16

/-- `bytes` are those of the union, counted from its beginning. -/
structure NetworkFilter where
  unionSelector : DWORD
  validFields : DWORD
  bytes : Buffer

structure TransportFilter where
  unionSelector : DWORD
  validFields : DWORD
  sourcePort : Port × Port
  destPort : Port × Port

structure StaticFilter where
  adapter : BitVec 64
  directionFlags : DWORD
  filterAction : DWORD
  validFields : DWORD
  dataLinkFilter : DataLinkFilter
  networkFilter : NetworkFilter
  transportFilter : TransportFilter

def flag (present : Bool) (value : DWORD) : DWORD := bif present then value else 0#32

def flags (first second third : Bool) : DWORD := flag first 1#32 ||| flag second 2#32 ||| flag third 4#32

def has (fields value : DWORD) : Bool := fields &&& value != 0#32

def put {n : ℕ} (m : Buffer) (offset : ℕ) (a : Address n) : Buffer := fun i =>
  if h : offset ≤ i ∧ i < offset + n then a ⟨i - offset, by omega⟩ else m i

def get (m : Buffer) (offset n : ℕ) : Address n := fun i => m (offset + i)

/-- `IP_SUBNET_V4_TYPE` and `IP_SUBNET_V6_TYPE`. -/
def subnetType : Address 4 := ![1, 0, 0, 0]

/-- `IP_ADDRESS_V4` or `IP_ADDRESS_V6`: the type, the address and the mask. -/
def putSubnet {n : ℕ} (m : Buffer) (offset : ℕ) : Option (IpSubnet n) → Buffer
  | none => m
  | some subnet => put (put (put m offset subnetType) (offset + 4) subnet.address) (offset + 4 + n) subnet.mask

variable {family : Family}

namespace Filter

variable (f : Filter family)

def hasDataLink : Bool := f.sourceHwAddress.isSome || f.destHwAddress.isSome || f.etherType.isSome

def hasNetwork : Bool := f.sourceAddress.isSome || f.destAddress.isSome || f.protocol.isSome

def hasTransport : Bool := f.sourcePort.isSome || f.destPort.isSome

/-- `IPPROTO_TCP` or `IPPROTO_UDP`. -/
def isTcpUdp : Bool := f.protocol == some 6 || f.protocol == some 17

/-- `IP_V4_FILTER` or `IP_V6_FILTER`, with the protocol behind the two addresses. -/
def networkBytes : Buffer :=
  let m := putSubnet (putSubnet (fun _ => 0) 4 f.sourceAddress) (8 + 2 * family.size) f.destAddress
  match f.protocol with
  | none => m
  | some protocol => Function.update m (12 + 4 * family.size) protocol

end Filter

def Direction.flags : Direction → DWORD
  | .inbound => 2#32
  | .outbound => 1#32
  | .both => 3#32

def FilterAction.code : FilterAction → DWORD
  | .pass => 1#32
  | .drop => 2#32
  | .redirect => 3#32
  | .passRedirect => 4#32
  | .dropRedirect => 5#32

def toStaticFilter (f : Filter family) : StaticFilter where
  adapter := f.adapterHandle
  directionFlags := f.direction.flags
  filterAction := f.action.code
  validFields := flags f.hasDataLink f.hasNetwork f.hasTransport
  dataLinkFilter :=
    { unionSelector := flag f.hasDataLink 1#32
      validFields := flags f.sourceHwAddress.isSome f.destHwAddress.isSome f.etherType.isSome
      srcAddress := f.sourceHwAddress.getD 0
      destAddress := f.destHwAddress.getD 0
      protocol := f.etherType.getD 0 }
  networkFilter :=
    { unionSelector := flag f.hasNetwork family.selector
      validFields := flags f.sourceAddress.isSome f.destAddress.isSome f.protocol.isSome
      bytes := f.networkBytes }
  transportFilter :=
    { unionSelector := flag (f.hasTransport && f.isTcpUdp) 1#32
      validFields := flags f.sourcePort.isSome f.destPort.isSome false
      sourcePort := f.sourcePort.getD (0, 0)
      destPort := f.destPort.getD (0, 0) }

/-- An IPv4 address goes through `ntohl` on its way back, an IPv6 address does not. -/
def readAddress : (family : Family) → Address family.size → Address family.size
  | .v4, a => fun i => a i.rev
  | .v6, a => a

def readSubnet (subnet : IpSubnet family.size) : IpSubnet family.size where
  address := readAddress family subnet.address
  mask := readAddress family subnet.mask

def subnetAt (m : Buffer) (offset n : ℕ) : IpSubnet n where
  address := get m (offset + 4) n
  mask := get m (offset + 4 + n) n

def directionOf (directionFlags : DWORD) : Direction :=
  if has directionFlags 2#32 then (if has directionFlags 1#32 then .both else .inbound)
  else if has directionFlags 1#32 then .outbound
  else .both

def actionOf (filterAction : DWORD) : FilterAction :=
  if filterAction = 2#32 then .drop
  else if filterAction = 3#32 then .redirect
  else if filterAction = 4#32 then .passRedirect
  else if filterAction = 5#32 then .dropRedirect
  else .pass

def fromStaticFilter (family : Family) (s : StaticFilter) : Filter family where
  adapterHandle := s.adapter
  direction := directionOf s.directionFlags
  action := actionOf s.filterAction
  sourceHwAddress :=
    if has s.validFields 1#32 && s.dataLinkFilter.unionSelector == 1#32 && has s.dataLinkFilter.validFields 1#32
    then some s.dataLinkFilter.srcAddress else none
  destHwAddress :=
    if has s.validFields 1#32 && s.dataLinkFilter.unionSelector == 1#32 && has s.dataLinkFilter.validFields 2#32
    then some s.dataLinkFilter.destAddress else none
  etherType :=
    if has s.validFields 1#32 && s.dataLinkFilter.unionSelector == 1#32 && has s.dataLinkFilter.validFields 4#32
    then some s.dataLinkFilter.protocol else none
  sourceAddress :=
    if has s.validFields 2#32 && s.networkFilter.unionSelector == family.selector
      && has s.networkFilter.validFields 1#32
    then some (readSubnet (subnetAt s.networkFilter.bytes 4 family.size)) else none
  destAddress :=
    if has s.validFields 2#32 && s.networkFilter.unionSelector == family.selector
      && has s.networkFilter.validFields 2#32
    then some (readSubnet (subnetAt s.networkFilter.bytes (8 + 2 * family.size) family.size)) else none
  -- `m_IPv4.m_Protocol`, also where the union holds an IPv6 filter
  protocol :=
    if has s.validFields 2#32 && (s.networkFilter.unionSelector == 1#32 || s.networkFilter.unionSelector == 2#32)
      && has s.networkFilter.validFields 4#32
    then some (s.networkFilter.bytes 28) else none
  sourcePort :=
    if has s.validFields 4#32 && s.transportFilter.unionSelector == 1#32 && has s.transportFilter.validFields 1#32
    then some s.transportFilter.sourcePort else none
  destPort :=
    if has s.validFields 4#32 && s.transportFilter.unionSelector == 1#32 && has s.transportFilter.validFields 2#32
    then some s.transportFilter.destPort else none

/-! ### Flags and bytes -/

@[simp] theorem has_first (first second third : Bool) : has (flags first second third) 1#32 = first := by
  cases first <;> cases second <;> cases third <;> rfl

@[simp] theorem has_second (first second third : Bool) : has (flags first second third) 2#32 = second := by
  cases first <;> cases second <;> cases third <;> rfl

@[simp] theorem has_third (first second third : Bool) : has (flags first second third) 4#32 = third := by
  cases first <;> cases second <;> cases third <;> rfl

@[simp] theorem flag_eq_one (present : Bool) : (flag present 1#32 == 1#32) = present := by
  cases present <;> rfl

@[simp] theorem flag_selector (present : Bool) : (flag present family.selector == family.selector) = present := by
  cases present <;> cases family <;> rfl

@[simp] theorem flag_selector_any (present : Bool) :
    (flag present family.selector == 1#32 || flag present family.selector == 2#32) = present := by
  cases present <;> cases family <;> rfl

theorem get_put {n : ℕ} (m : Buffer) (offset : ℕ) (a : Address n) : get (put m offset a) offset n = a := by
  funext i
  have hinside : offset ≤ offset + i ∧ offset + i < offset + n := ⟨Nat.le_add_right _ _, by omega⟩
  simp only [get, put, dif_pos hinside, Nat.add_sub_cancel_left]

theorem put_apart {n i offset : ℕ} (m : Buffer) (a : Address n) (h : i < offset ∨ offset + n ≤ i) :
    put m offset a i = m i := by
  rw [put, dif_neg (by omega)]

theorem get_put_apart {n k offset first : ℕ} (m : Buffer) (a : Address n)
    (h : first + k ≤ offset ∨ offset + n ≤ first) : get (put m offset a) first k = get m first k := by
  funext i
  exact put_apart m a (by omega)

theorem putSubnet_before {n i offset : ℕ} (m : Buffer) (subnet : Option (IpSubnet n)) (h : i < offset) :
    putSubnet m offset subnet i = m i := by
  cases subnet with
  | none => rfl
  | some subnet => rw [putSubnet, put_apart _ _ (by omega), put_apart _ _ (by omega), put_apart _ _ (by omega)]

theorem subnetAt_congr {m m' : Buffer} {offset n : ℕ} (h : ∀ i < offset + 4 + 2 * n, m i = m' i) :
    subnetAt m offset n = subnetAt m' offset n := by
  simp only [subnetAt, IpSubnet.mk.injEq]
  exact ⟨funext fun i => h _ (by omega), funext fun i => h _ (by omega)⟩

theorem subnetAt_putSubnet {n : ℕ} (m : Buffer) (offset : ℕ) (subnet : IpSubnet n) :
    subnetAt (putSubnet m offset (some subnet)) offset n = subnet := by
  simp only [subnetAt, putSubnet]
  rw [get_put, get_put_apart _ _ (by omega), get_put]

theorem networkBytes_before (f : Filter family) {i : ℕ} (h : i < 12 + 4 * family.size) :
    f.networkBytes i =
      putSubnet (putSubnet (fun _ => 0) 4 f.sourceAddress) (8 + 2 * family.size) f.destAddress i := by
  rw [Filter.networkBytes]
  cases f.protocol with
  | none => rfl
  | some protocol => exact Function.update_of_ne (by omega) _ _

theorem subnetAt_source {f : Filter family} {subnet : IpSubnet family.size} (h : f.sourceAddress = some subnet) :
    subnetAt f.networkBytes 4 family.size = subnet := by
  have hsame : subnetAt f.networkBytes 4 family.size =
      subnetAt (putSubnet (fun _ => 0) 4 f.sourceAddress) 4 family.size := by
    refine subnetAt_congr fun i hi => ?_
    rw [networkBytes_before f (by omega), putSubnet_before _ _ (by omega)]
  rw [hsame, h, subnetAt_putSubnet]

theorem subnetAt_dest {f : Filter family} {subnet : IpSubnet family.size} (h : f.destAddress = some subnet) :
    subnetAt f.networkBytes (8 + 2 * family.size) family.size = subnet := by
  rw [subnetAt_congr fun i hi => networkBytes_before f (by omega), h, subnetAt_putSubnet]

/-! ### Reading back -/

/-- What is found at the place of the protocol in an IPv4 filter: in an IPv6 filter a byte of the mask. -/
def Filter.protocolByte : (family : Family) → Filter family → Byte → Byte
  | .v4, _, protocol => protocol
  | .v6, f, _ => match f.sourceAddress with
    | none => 0
    | some subnet => subnet.mask ⟨4, by decide⟩

theorem networkBytes_protocol {f : Filter family} {protocol : Byte} (h : f.protocol = some protocol) :
    f.networkBytes 28 = Filter.protocolByte family f protocol := by
  cases family with
  | v4 =>
    simp only [Filter.networkBytes, h]
    exact Function.update_self _ _ _
  | v6 =>
    have hbefore : 28 < 12 + 4 * Family.v6.size := by decide
    have hdest : 28 < 8 + 2 * Family.v6.size := by decide
    rw [networkBytes_before f hbefore, putSubnet_before _ _ hdest, Filter.protocolByte]
    cases f.sourceAddress with
    | none => rfl
    | some subnet =>
      have hmask := congrFun (get_put (put (put (fun _ => 0) 4 subnetType) 8 subnet.address) 24 subnet.mask)
        ⟨4, by decide⟩
      exact hmask

theorem read_field {β γ : Type} {o : Option β} {layer : Bool} {value : γ} {g : β → γ}
    (hlayer : o.isSome = true → layer = true) (hvalue : ∀ x, o = some x → value = g x) :
    (if (layer && layer && o.isSome) = true then some value else none) = o.map g := by
  cases o with
  | none => simp
  | some x =>
    rw [hlayer rfl, hvalue x rfl]
    rfl

theorem read_plain {β : Type} {o : Option β} {layer : Bool} (x : β) (hlayer : o.isSome = true → layer = true) :
    (if (layer && layer && o.isSome) = true then some (o.getD x) else none) = o := by
  have hvalue : ∀ y, o = some y → o.getD x = id y := by
    rintro y rfl
    rfl
  rw [read_field hlayer hvalue, Option.map_id, id]

/-- The ports need the selector of TCP and UDP besides. -/
theorem read_ports {β : Type} {o : Option β} {layer tcpUdp : Bool} (x : β)
    (hlayer : o.isSome = true → layer = true) :
    (if (layer && (layer && tcpUdp) && o.isSome) = true then some (o.getD x) else none) =
      if tcpUdp then o else none := by
  cases o with
  | none => simp
  | some ports =>
    rw [hlayer rfl]
    cases tcpUdp <;> rfl

section Fields

variable (f : Filter family)

theorem from_direction : (fromStaticFilter family (toStaticFilter f)).direction = f.direction := by
  simp only [fromStaticFilter, toStaticFilter]
  cases f.direction with
  | inbound => rfl
  | outbound => rfl
  | both => rfl

theorem from_action : (fromStaticFilter family (toStaticFilter f)).action = f.action := by
  simp only [fromStaticFilter, toStaticFilter]
  cases f.action with
  | pass => rfl
  | drop => rfl
  | redirect => rfl
  | passRedirect => rfl
  | dropRedirect => rfl

theorem from_sourceHwAddress :
    (fromStaticFilter family (toStaticFilter f)).sourceHwAddress = f.sourceHwAddress := by
  simp only [fromStaticFilter, toStaticFilter, has_first, flag_eq_one]
  exact read_plain 0 fun h => by simp [Filter.hasDataLink, h]

theorem from_destHwAddress : (fromStaticFilter family (toStaticFilter f)).destHwAddress = f.destHwAddress := by
  simp only [fromStaticFilter, toStaticFilter, has_first, has_second, flag_eq_one]
  exact read_plain 0 fun h => by simp [Filter.hasDataLink, h]

theorem from_etherType : (fromStaticFilter family (toStaticFilter f)).etherType = f.etherType := by
  simp only [fromStaticFilter, toStaticFilter, has_first, has_third, flag_eq_one]
  exact read_plain 0 fun h => by simp [Filter.hasDataLink, h]

theorem from_sourceAddress :
    (fromStaticFilter family (toStaticFilter f)).sourceAddress = f.sourceAddress.map readSubnet := by
  simp only [fromStaticFilter, toStaticFilter, has_first, has_second, flag_selector]
  apply read_field
  · exact fun h => by simp [Filter.hasNetwork, h]
  · exact fun subnet h => by rw [subnetAt_source h]

theorem from_destAddress :
    (fromStaticFilter family (toStaticFilter f)).destAddress = f.destAddress.map readSubnet := by
  simp only [fromStaticFilter, toStaticFilter, has_second, flag_selector]
  apply read_field
  · exact fun h => by simp [Filter.hasNetwork, h]
  · exact fun subnet h => by rw [subnetAt_dest h]

theorem from_protocol :
    (fromStaticFilter family (toStaticFilter f)).protocol = f.protocol.map (Filter.protocolByte family f) := by
  simp only [fromStaticFilter, toStaticFilter, has_second, has_third, flag_selector_any]
  apply read_field
  · exact fun h => by simp [Filter.hasNetwork, h]
  · exact fun protocol h => networkBytes_protocol h

theorem from_sourcePort : (fromStaticFilter family (toStaticFilter f)).sourcePort =
    if f.isTcpUdp then f.sourcePort else none := by
  simp only [fromStaticFilter, toStaticFilter, has_first, has_third, flag_eq_one]
  exact read_ports (0, 0) fun h => by simp [Filter.hasTransport, h]

theorem from_destPort : (fromStaticFilter family (toStaticFilter f)).destPort =
    if f.isTcpUdp then f.destPort else none := by
  simp only [fromStaticFilter, toStaticFilter, has_second, has_third, flag_eq_one]
  exact read_ports (0, 0) fun h => by simp [Filter.hasTransport, h]

end Fields

def SameBackwards : (family : Family) → IpSubnet family.size → Prop
  | .v4, subnet => (∀ i, subnet.address i.rev = subnet.address i) ∧ ∀ i, subnet.mask i.rev = subnet.mask i
  | .v6, _ => True

theorem readSubnet_eq_iff {subnet : IpSubnet family.size} :
    readSubnet subnet = subnet ↔ SameBackwards family subnet := by
  cases family with
  | v4 =>
    obtain ⟨address, mask⟩ := subnet
    simp only [readSubnet, readAddress, IpSubnet.mk.injEq, funext_iff, SameBackwards]
  | v6 => exact ⟨fun _ => trivial, fun _ => rfl⟩

structure Restorable (f : Filter family) : Prop where
  source : ∀ subnet, f.sourceAddress = some subnet → SameBackwards family subnet
  dest : ∀ subnet, f.destAddress = some subnet → SameBackwards family subnet
  protocol : ∀ protocol, f.protocol = some protocol → Filter.protocolByte family f protocol = protocol
  ports : f.hasTransport = true → f.isTcpUdp = true

theorem map_eq_self_iff {β : Type} {g : β → β} {o : Option β} :
    o.map g = o ↔ ∀ x, o = some x → g x = x := by
  cases o with
  | none => simp
  | some x => simp

theorem ports_eq_iff {β : Type} {keeps : Bool} {o : Option β} :
    (if keeps then o else none) = o ↔ (o.isSome = true → keeps = true) := by
  cases keeps <;> cases o <;> simp

theorem fromStaticFilter_toStaticFilter_iff (f : Filter family) :
    fromStaticFilter family (toStaticFilter f) = f ↔ Restorable f := by
  rw [Filter.ext_iff, from_direction, from_action, from_sourceHwAddress, from_destHwAddress, from_etherType,
    from_sourceAddress, from_destAddress, from_protocol, from_sourcePort, from_destPort, map_eq_self_iff,
    map_eq_self_iff, map_eq_self_iff, ports_eq_iff, ports_eq_iff]
  simp only [readSubnet_eq_iff, true_and, and_true]
  constructor
  · rintro ⟨-, hsource, hdest, hsourcePort, hdestPort, hprotocol⟩
    exact ⟨hsource, hdest, hprotocol, fun hports => (Bool.or_eq_true_iff.mp hports).elim hsourcePort hdestPort⟩
  · intro h
    refine ⟨rfl, h.source, h.dest, fun hport => h.ports ?_, fun hport => h.ports ?_, h.protocol⟩
    · exact Bool.or_eq_true_iff.mpr (.inl hport)
    · exact Bool.or_eq_true_iff.mpr (.inr hport)

/-! ### The table -/

abbrev AnyFilter := (family : Family) × Filter family

def AnyFilter.toStaticFilter (f : AnyFilter) : StaticFilter := StaticFilters.toStaticFilter f.2

/-- `driver` is the table in the driver, without its default action. -/
structure FilterTable where
  filters : List AnyFilter
  driver : List StaticFilter

/-- `success` is what the driver answers, for `remove_filters_if` to each of its calls. -/
inductive Label
  | addFilterFront (f : AnyFilter) (success : Bool)
  | addFilterBack (f : AnyFilter) (success : Bool)
  | insertFilter (f : AnyFilter) (position : ℕ) (success : Bool)
  | removeFilter (position : ℕ) (success : Bool)
  | removeFiltersIf (predicate : AnyFilter → Bool) (success : ℕ → Bool)

/-- The loop of `remove_filters_if`, at `position` and before the call with the number `call`. -/
def removeFrom (predicate : AnyFilter → Bool) (success : ℕ → Bool) :
    ℕ → ℕ → List AnyFilter → List StaticFilter → FilterTable
  | _, _, [], driver => ⟨[], driver⟩
  | position, call, f :: rest, driver =>
    if predicate f then
      if success call then removeFrom predicate success position (call + 1) rest (driver.eraseIdx position)
      else
        let left := removeFrom predicate success (position + 1) (call + 1) rest driver
        { left with filters := f :: left.filters }
    else
      let left := removeFrom predicate success (position + 1) call rest driver
      { left with filters := f :: left.filters }

/-- A call that the driver refuses, or whose position is out of bounds, changes nothing. What the driver does
with its own table follows the comments in `ndisapi.cpp`. -/
def step (s : FilterTable) : Label → Option FilterTable
  | .addFilterFront f success =>
    some (if success then ⟨f :: s.filters, f.toStaticFilter :: s.driver⟩ else s)
  | .addFilterBack f success =>
    some (if success then ⟨s.filters ++ [f], s.driver ++ [f.toStaticFilter]⟩ else s)
  | .insertFilter f position success =>
    some (if position ≤ s.filters.length ∧ success = true then
      ⟨s.filters.insertIdx position f, s.driver.insertIdx position f.toStaticFilter⟩ else s)
  | .removeFilter position success =>
    some (if position < s.filters.length ∧ success = true then
      ⟨s.filters.eraseIdx position, s.driver.eraseIdx position⟩ else s)
  | .removeFiltersIf predicate success => some (removeFrom predicate success 0 0 s.filters s.driver)

def Mirrors (s : FilterTable) : Prop := s.driver = s.filters.map AnyFilter.toStaticFilter

/-- `before` are the filters that the loop has passed. -/
theorem removeFrom_mirrors (predicate : AnyFilter → Bool) (success : ℕ → Bool) (before rest : List AnyFilter)
    (call : ℕ) : (removeFrom predicate success before.length call rest
        ((before ++ rest).map AnyFilter.toStaticFilter)).driver =
      (before ++ (removeFrom predicate success before.length call rest
        ((before ++ rest).map AnyFilter.toStaticFilter)).filters).map AnyFilter.toStaticFilter := by
  induction rest generalizing before call with
  | nil => rfl
  | cons f rest ih =>
    have hpassed : before ++ f :: rest = (before ++ [f]) ++ rest := by simp
    have hlength : before.length + 1 = (before ++ [f]).length := by simp
    have herased : ((before ++ f :: rest).map AnyFilter.toStaticFilter).eraseIdx before.length =
        (before ++ rest).map AnyFilter.toStaticFilter := by
      rw [List.eraseIdx_map, List.eraseIdx_append_of_length_le (Nat.le_refl _), Nat.sub_self,
        List.eraseIdx_cons_zero]
    simp only [removeFrom]
    split_ifs with hmatches hremoved
    · rw [herased]
      exact ih before (call + 1)
    · rw [hpassed, hlength]
      simpa using ih (before ++ [f]) (call + 1)
    · rw [hpassed, hlength]
      simpa using ih (before ++ [f]) call

theorem mirrors_step {s t : FilterTable} {a : Label} (h : Mirrors s) (hstep : step s a = some t) : Mirrors t := by
  cases a with
  | addFilterFront f success =>
    obtain rfl := Option.some.inj hstep
    split_ifs
    · simp only [Mirrors, List.map_cons]
      rw [h]
    · exact h
  | addFilterBack f success =>
    obtain rfl := Option.some.inj hstep
    split_ifs
    · simp only [Mirrors, List.map_append, List.map_cons, List.map_nil]
      rw [h]
    · exact h
  | insertFilter f position success =>
    obtain rfl := Option.some.inj hstep
    split_ifs
    · simp only [Mirrors]
      rw [h, List.map_insertIdx]
    · exact h
  | removeFilter position success =>
    obtain rfl := Option.some.inj hstep
    split_ifs
    · simp only [Mirrors]
      rw [h, List.eraseIdx_map]
    · exact h
  | removeFiltersIf predicate success =>
    obtain rfl := Option.some.inj hstep
    have hloop := removeFrom_mirrors predicate success [] s.filters 0
    rw [List.nil_append, ← h] at hloop
    exact hloop

/-- The table in the driver is taken as empty when `static_filters` is constructed. -/
def empty : FilterTable := ⟨[], []⟩

theorem always_mirrors (as : List Label) : Always step Mirrors empty as :=
  always_of_invariant (fun _ _ _ => mirrors_step) as rfl

/-! ### Storing and loading -/

/-- The entries that `store_table` gives to the driver. -/
def storeTable (filters : List AnyFilter) : List StaticFilter := filters.map AnyFilter.toStaticFilter

/-- The loop of `load_table`. -/
def rebuild (entries : List StaticFilter) : List AnyFilter :=
  entries.filterMap fun s =>
    if s.networkFilter.unionSelector = 1#32 then some ⟨.v4, fromStaticFilter .v4 s⟩
    else if s.networkFilter.unionSelector = 2#32 then some ⟨.v6, fromStaticFilter .v6 s⟩
    else none

def zeroFilter : StaticFilter where
  adapter := 0
  directionFlags := 0
  filterAction := 0
  validFields := 0
  dataLinkFilter := { unionSelector := 0, validFields := 0, srcAddress := 0, destAddress := 0, protocol := 0 }
  networkFilter := { unionSelector := 0, validFields := 0, bytes := fun _ => 0 }
  transportFilter := { unionSelector := 0, validFields := 0, sourcePort := (0, 0), destPort := (0, 0) }

/-- The fields up to the statistics, then the three layers; the network layer has the size of IPv6. -/
def sizeofStaticFilter : ℕ := 56 + 24 + 84 + 20

def sizeofStaticFilterTable : ℕ := 8 + sizeofStaticFilter

/-- What `GetPacketFilterTable` asks for: the difference is a `DWORD`, and so is the sum in the end. -/
def requestedBytes (tableSize : DWORD) : ℕ :=
  (sizeofStaticFilterTable + (tableSize - 1#32).toNat * sizeofStaticFilter) % 2 ^ 32

def received (bytes : ℕ) (entries : ℕ → StaticFilter) (i : ℕ) : StaticFilter :=
  if 8 + (i + 1) * sizeofStaticFilter ≤ bytes then entries i else zeroFilter

/-- `tableSize` and `entries` are what the driver answers, `none` for a call that fails. The request reads
`m_TableSize` from the buffer, which is zero. The last entry is the default action. -/
def loadTable (filters : List AnyFilter) (tableSize : Option DWORD) (entries : Option (ℕ → StaticFilter)) :
    Bool × List AnyFilter :=
  match tableSize, entries with
  | none, _ => (false, filters)
  | some _, none => (false, filters)
  | some tableSize, some entries =>
    if tableSize = 0#32 then (false, filters)
    else (true, rebuild ((List.range (tableSize.toNat - 1)).map (received (requestedBytes 0#32) entries)))

theorem filterMap_eq_self_iff {β : Type} {φ : β → Option β} {l : List β} :
    l.filterMap φ = l ↔ ∀ x ∈ l, φ x = some x := by
  induction l with
  | nil => simp
  | cons x l ih =>
    cases hx : φ x with
    | none =>
      rw [List.filterMap_cons_none hx]
      constructor
      · intro heq
        have hlength := List.length_filterMap_le φ l
        rw [heq, List.length_cons] at hlength
        omega
      · intro hall
        rw [hall x List.mem_cons_self] at hx
        cases hx
    | some y =>
      rw [List.filterMap_cons_some hx, List.cons.injEq, ih, List.forall_mem_cons, hx, Option.some.injEq]

theorem loaded_filter (f : AnyFilter) :
    (if f.toStaticFilter.networkFilter.unionSelector = 1#32 then
        some (⟨.v4, fromStaticFilter .v4 f.toStaticFilter⟩ : AnyFilter)
      else if f.toStaticFilter.networkFilter.unionSelector = 2#32 then
        some ⟨.v6, fromStaticFilter .v6 f.toStaticFilter⟩
      else none) =
    if f.2.hasNetwork then some ⟨f.1, fromStaticFilter f.1 f.toStaticFilter⟩ else none := by
  obtain ⟨family, f⟩ := f
  have hselector : (AnyFilter.toStaticFilter ⟨family, f⟩).networkFilter.unionSelector =
      flag f.hasNetwork family.selector := rfl
  rw [hselector]
  cases f.hasNetwork <;> cases family <;> rfl

theorem rebuild_storeTable_iff (filters : List AnyFilter) :
    rebuild (storeTable filters) = filters ↔ ∀ f ∈ filters, f.2.hasNetwork = true ∧ Restorable f.2 := by
  rw [rebuild, storeTable, List.filterMap_map, filterMap_eq_self_iff]
  refine forall₂_congr fun f _ => ?_
  rw [Function.comp_apply, loaded_filter, ← fromStaticFilter_toStaticFilter_iff]
  obtain ⟨family, f⟩ := f
  cases f.hasNetwork with
  | false => simp
  | true => simp [AnyFilter.toStaticFilter]

/-- The request ends behind the header of the table. -/
theorem requestedBytes_zero : requestedBytes 0#32 = 8 := by
  decide

theorem received_nothing (entries : ℕ → StaticFilter) (i : ℕ) : received 8 entries i = zeroFilter := by
  have hbeyond : ¬ 8 + (i + 1) * sizeofStaticFilter ≤ 8 := by
    simp only [sizeofStaticFilter]
    omega
  rw [received, if_neg hbeyond]

theorem rebuild_zeroFilter (indices : List ℕ) : rebuild (indices.map fun _ => zeroFilter) = [] := by
  rw [rebuild, List.filterMap_map, List.filterMap_eq_nil_iff]
  exact fun _ _ => rfl

theorem loadTable_succeeds {tableSize : DWORD} (filters : List AnyFilter) (entries : ℕ → StaticFilter)
    (h : tableSize ≠ 0#32) : loadTable filters (some tableSize) (some entries) = (true, []) := by
  simp only [loadTable]
  rw [if_neg h, requestedBytes_zero, funext (received_nothing entries), rebuild_zeroFilter]

/-- The loop could bring the stored filters back, but it never sees them. -/
theorem loadTable_loses (filters : List AnyFilter) :
    (rebuild (storeTable filters) = filters ↔ ∀ f ∈ filters, f.2.hasNetwork = true ∧ Restorable f.2) ∧
      ∀ tableSize entries, loadTable filters tableSize entries =
        if tableSize.any (· ≠ 0#32) && entries.isSome then (true, []) else (false, filters) := by
  refine ⟨rebuild_storeTable_iff filters, fun tableSize entries => ?_⟩
  cases tableSize with
  | none => simp [loadTable]
  | some size =>
    cases entries with
    | none => simp [loadTable]
    | some entries =>
      by_cases hsize : size = 0#32
      · simp [loadTable, hsize]
      · rw [loadTable_succeeds filters entries hsize]
        simp [hsize]

end ProxySwitch.StaticFilters
