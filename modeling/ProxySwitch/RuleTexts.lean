import ProxySwitch.DestinationRuleBounds

set_option autoImplicit false

namespace ProxySwitch.RuleTexts
open DestinationRuleBounds DestinationRules PrefixMasks RuntimeStrings

section Splitting
variable {c : Char} {text first : Text}

theorem notMem_before : c ∉ before c text := by
  intro hmem
  have hne := List.mem_takeWhile_imp hmem
  simp at hne

theorem eq_before_after (h : c ∈ text) : text = before c text ++ c :: after c text := by
  obtain ⟨rest, hrest⟩ : ∃ rest, text.dropWhile (· ≠ c) = c :: rest := by
    have hne : text.dropWhile (· ≠ c) ≠ [] := by
      intro hnil
      have hall := List.dropWhile_eq_nil_iff.mp hnil c h
      simp at hall
    obtain ⟨d, rest, hrest⟩ := List.exists_cons_of_ne_nil hne
    have hstop : ¬decide (d ≠ c) = true := by
      have hhead := List.head?_dropWhile_not (fun d => decide (d ≠ c)) text
      rw [hrest] at hhead
      exact Bool.eq_false_iff.mp hhead
    obtain rfl : d = c := by simpa using hstop
    exact ⟨rest, hrest⟩
  unfold before after
  rw [hrest, List.tail_cons, ← hrest, List.takeWhile_append_dropWhile]

theorem before_after_append (h : c ∉ first) (second : Text) :
    before c (first ++ c :: second) = first ∧ after c (first ++ c :: second) = second := by
  have hfirst : ∀ d ∈ first, decide (d ≠ c) = true := fun d hd =>
    decide_eq_true fun heq => h (heq ▸ hd)
  unfold before after
  rw [List.takeWhile_append_of_pos hfirst, List.dropWhile_append_of_pos hfirst]
  simp

end Splitting

section Ports

def isBlank (c : Char) : Bool := c ∈ " \t\r\n".toList

inductive PortText : Text → ℕ → Prop
  | blanks {front digits back : Text} {n : ℕ} : (∀ c ∈ front, isBlank c = true) →
      (∀ c ∈ back, isBlank c = true) → decimal digits = some n → n ≤ 65535 →
      PortText (front ++ digits ++ back) n

inductive PortRangeText : Text → ℕ → ℕ → Prop
  | port {text : Text} {n : ℕ} : PortText text n → PortRangeText text n n
  | range {first second : Text} {n m : ℕ} : PortText first n → PortText second m →
      PortRangeText (first ++ '-' :: second) n m

/-- What is read is a range of the grammar, and each range is read as the ports from the smaller
    number to the larger. -/
structure PortRangeExact (value : Text) : Prop where
  only : ∀ range, parsePortRange value = some range → ∃ n m, PortRangeText value n m
  reads : ∀ n m, PortRangeText value n m → ∃ range, parsePortRange value = some range ∧
    ∀ rule : DestinationDirectRule, rule.dstPorts = [range] → ∀ port,
      matchesPortFilter rule port = true ↔ min n m ≤ port.toNat ∧ port.toNat ≤ max n m

inductive SignedZero : Text → Prop
  | mk {first front zeros back : Text} {n : ℕ} : PortText first n →
      (∀ c ∈ front, isBlank c = true) → (∀ c ∈ back, isBlank c = true) → zeros ≠ [] →
      (∀ c ∈ zeros, c = '0') → SignedZero (first ++ '-' :: (front ++ '-' :: zeros ++ back))

variable {value text first second : Text} {n m : ℕ}

theorem isDigit_not_blank {c : Char} (h : isDigit c = true) : isBlank c = false := by
  simp only [isDigit, Bool.and_eq_true, decide_eq_true_eq] at h
  refine decide_eq_false fun hmem => ?_
  have hblank : c = ' ' ∨ c = '\t' ∨ c = '\r' ∨ c = '\n' := by simpa using hmem
  obtain rfl | rfl | rfl | rfl := hblank <;> exact absurd h.1 (by decide)

theorem trim_append {front back : Text} (hfront : ∀ c ∈ front, isBlank c = true)
    (hback : ∀ c ∈ back, isBlank c = true) : trim (front ++ text ++ back) = trim text :=
  trimBy_append hfront hback

theorem trim_split (text : Text) : ∃ front back, text = front ++ trim text ++ back ∧
    (∀ c ∈ front, isBlank c = true) ∧ ∀ c ∈ back, isBlank c = true := trimBy_split _ text

theorem mem_of_mem_trim {c : Char} (h : c ∈ trim text) : c ∈ text := by
  obtain ⟨front, back, htext, -, -⟩ := trim_split text
  rw [htext]
  exact List.mem_append_left _ (List.mem_append_right _ h)

theorem trim_digits (h : text.all isDigit = true) : trim text = text := by
  have hdigit : ∀ c ∈ text, isBlank c = false := fun c hc =>
    isDigit_not_blank (List.all_eq_true.mp h c hc)
  exact trimBy_eq_self (fun c hc => hdigit c (List.mem_of_mem_head? hc))
    fun c hc => hdigit c (List.mem_of_mem_getLast? hc)

theorem portText_iff : PortText text n ↔ decimal (trim text) = some n ∧ n ≤ 65535 := by
  constructor
  · rintro ⟨hfront, hback, hdigits, hmax⟩
    rw [trim_append hfront hback, trim_digits (decimal_eq_some hdigits).2.1]
    exact ⟨hdigits, hmax⟩
  · rintro ⟨hdigits, hmax⟩
    obtain ⟨front, back, htext, hfront, hback⟩ := trim_split text
    rw [htext]
    exact .blanks hfront hback hdigits hmax

theorem PortText.noDash (h : PortText text n) : '-' ∉ text := by
  obtain ⟨hfront, hback, hdigits, -⟩ := h
  have hall := List.all_eq_true.mp (decimal_eq_some hdigits).2.1
  intro hdash
  obtain hdash | hdash := List.mem_append.mp hdash
  · obtain hdash | hdash := List.mem_append.mp hdash
    · exact absurd (hfront _ hdash) (by decide)
    · exact absurd (hall _ hdash) (by decide)
  · exact absurd (hback _ hdash) (by decide)

theorem parsePort_portText (h : PortText text n) : parsePort text = some (BitVec.ofNat 16 n) := by
  obtain ⟨hdigits, hmax⟩ := portText_iff.mp h
  refine parsePort_of_portNumber ?_
  rw [portNumber, hdigits]
  exact if_pos hmax

theorem digitsValue_eq_zero {digits : Text} (hdigits : digits.all isDigit = true) :
    digitsValue digits = 0 ↔ ∀ c ∈ digits, c = '0' := by
  have hfold : ∀ start, digits.foldl (fun n c => 10 * n + (c.toNat - '0'.toNat)) start = 0 ↔
      start = 0 ∧ ∀ c ∈ digits, c = '0' := by
    induction digits with
    | nil => simp
    | cons c digits ih =>
      intro start
      obtain ⟨hc, hrest⟩ := Bool.and_eq_true_iff.mp hdigits
      simp only [isDigit, Bool.and_eq_true, decide_eq_true_eq] at hc
      have hzero : c.toNat - '0'.toNat = 0 ↔ c = '0' := by
        have hle : '0'.toNat ≤ c.toNat := hc.1
        constructor
        · intro h
          exact Char.toNat_inj.mp (by omega)
        · rintro rfl
          rfl
      rw [List.foldl_cons, ih hrest, List.forall_mem_cons, ← hzero, ← and_assoc]
      refine and_congr_left fun _ => ?_
      omega
  rw [digitsValue, hfold, and_iff_right rfl]

/-- A port that is read is a number between blanks, or a zero with a sign. -/
theorem parsePort_cases {p : Port} (h : parsePort text = some p) : PortText text p.toNat ∨
    ∃ zeros, trim text = '-' :: zeros ∧ zeros ≠ [] ∧ ∀ c ∈ zeros, c = '0' := by
  unfold parsePort at h
  dsimp only at h
  split_ifs at h with hnil
  cases hread : fromCharsInt (trim text) with
  | none => simp [hread] at h
  | some r =>
    obtain ⟨port, rest⟩ := r
    simp only [hread] at h
    split_ifs at h with hport
    obtain ⟨rfl, hlow, hmax⟩ := hport
    obtain rfl := Option.some.inj h
    unfold fromCharsInt at hread
    split at hread
    · -- a sign, so only zero is not negative
      rename_i digits htrim
      obtain ⟨⟨n, rest⟩, hn, hr⟩ := Option.map_eq_some_iff.mp hread
      obtain ⟨rfl, rfl⟩ := Prod.mk.inj hr
      obtain ⟨zeros, hzeros, hdecimal, -⟩ := fromCharsUnsigned_eq_some hn
      obtain ⟨hne, hall, hvalue⟩ := decimal_eq_some hdecimal
      rw [List.append_nil] at hzeros
      subst hzeros
      have hzero : n = 0 := by omega
      rw [hzero, digitsValue_eq_zero hall] at hvalue
      exact .inr ⟨digits, htrim, hne, hvalue⟩
    · obtain ⟨⟨n, rest⟩, hn, hr⟩ := Option.map_eq_some_iff.mp hread
      obtain ⟨rfl, rfl⟩ := Prod.mk.inj hr
      obtain ⟨digits, hdigits, hdecimal, -⟩ := fromCharsUnsigned_eq_some hn
      rw [List.append_nil] at hdigits
      have hsmall : n ≤ 65535 := by omega
      have hport : (BitVec.ofInt 16 (n : ℤ)).toNat = n := by
        rw [BitVec.ofInt_natCast, BitVec.toNat_ofNat]
        omega
      rw [hport]
      exact .inl (portText_iff.mpr ⟨hdigits ▸ hdecimal, hsmall⟩)

theorem parsePort_signedZero {zeros : Text} (htrim : trim text = '-' :: zeros) (hne : zeros ≠ [])
    (hzeros : ∀ c ∈ zeros, c = '0') : parsePort text = some 0 := by
  have hall : zeros.all isDigit = true := by
    refine List.all_eq_true.mpr fun c hc => ?_
    rw [hzeros c hc]
    rfl
  have hdecimal : decimal zeros = some 0 := by
    rw [decimal, if_pos ⟨hne, hall⟩, (digitsValue_eq_zero hall).mpr hzeros]
  have hread : fromCharsInt (trim text) = some (0, []) := by
    rw [htrim, fromCharsInt, fromCharsUnsigned_of_decimal hdecimal (Nat.zero_le _)]
    rfl
  have hnil : trim text ≠ [] := by
    rw [htrim]
    exact List.cons_ne_nil _ _
  simp only [parsePort, hnil, hread, if_false]
  decide

theorem parsePort_trim (text : Text) : parsePort (trim text) = parsePort text := by
  have htwice : trim (trim text) = trim text := trimBy_idem _ text
  simp only [parsePort, htwice]

theorem trim_dash (h : '-' ∈ value) : '-' ∈ trim value ∧
    trim (before '-' (trim value)) = trim (before '-' value) ∧
    trim (after '-' (trim value)) = trim (after '-' value) := by
  obtain ⟨front, back, hvalue, hfront, hback⟩ := trim_split value
  have hplain : ∀ {blanks : Text}, (∀ c ∈ blanks, isBlank c = true) → '-' ∉ blanks :=
    fun hblanks hdash => absurd (hblanks _ hdash) (by decide)
  have hdash : '-' ∈ trim value := by
    rw [hvalue] at h
    obtain h | h := List.mem_append.mp h
    · exact (List.mem_append.mp h).resolve_left (hplain hfront)
    · exact absurd h (hplain hback)
  have hsplit : value = (front ++ before '-' (trim value)) ++ '-' :: (after '-' (trim value) ++ back) := by
    conv_lhs => rw [hvalue, eq_before_after hdash]
    simp
  have hfirst : '-' ∉ front ++ before '-' (trim value) := fun hmem =>
    (List.mem_append.mp hmem).elim (hplain hfront) notMem_before
  obtain ⟨hbefore, hafter⟩ := before_after_append hfirst (after '-' (trim value) ++ back)
  rw [← hsplit] at hbefore hafter
  refine ⟨hdash, ?_, ?_⟩
  · have hcut := @trim_append (before '-' (trim value)) front [] hfront (List.forall_mem_nil _)
    rw [hbefore, ← hcut, List.append_nil]
  · have hcut := @trim_append (after '-' (trim value)) [] back (List.forall_mem_nil _) hback
    rw [hafter, ← hcut, List.nil_append]

theorem parsePortRange_eq (value : Text) : parsePortRange value =
    if '-' ∈ value then
      (parsePort (before '-' value)).bind fun p => (parsePort (after '-' value)).map (portsBetween p)
    else (parsePort value).map fun p => ⟨p, p⟩ := by
  unfold parsePortRange
  dsimp only
  by_cases hdash : '-' ∈ value
  · obtain ⟨htrim, hbefore, hafter⟩ := trim_dash hdash
    rw [if_neg (List.ne_nil_of_mem htrim), if_pos htrim, if_pos hdash, ← parsePort_trim, hbefore,
      parsePort_trim, ← parsePort_trim (after '-' (trim value)), hafter, parsePort_trim]
    cases parsePort (before '-' value) with
    | none => rfl
    | some p => cases parsePort (after '-' value) <;> rfl
  · have htrim : '-' ∉ trim value := fun hmem => hdash (mem_of_mem_trim hmem)
    rw [if_neg htrim, if_neg hdash, parsePort_trim]
    split_ifs with hnil
    · simp only [parsePort, hnil, if_true, Option.map_none]
    · rfl

/-- A signed zero needs a dash of its own before it. -/
theorem portText_of_parsePort {p : Port} (h : parsePort text = some p) (hdash : '-' ∉ text) :
    PortText text p.toNat := by
  refine (parsePort_cases h).resolve_right ?_
  rintro ⟨zeros, htrim, -, -⟩
  exact hdash (mem_of_mem_trim (htrim ▸ List.mem_cons_self))

theorem matchesPortFilter_between {rule : DestinationDirectRule} {p q port : Port}
    (h : rule.dstPorts = [portsBetween p q]) : matchesPortFilter rule port = true ↔
      min p.toNat q.toNat ≤ port.toNat ∧ port.toNat ≤ max p.toNat q.toNat := by
  have hfilter : matchesPortFilter rule port = true ↔ InRange (portsBetween p q) port := by
    simp [matchesPortFilter, h, InRange]
  rw [hfilter, inRange_portsBetween]
  simp only [BitVec.le_def]
  omega

theorem PortText.toNat (h : PortText text n) : (BitVec.ofNat 16 n).toNat = n := by
  have hmax := (portText_iff.mp h).2
  rw [BitVec.toNat_ofNat]
  omega

/-- A signed zero is read as a port and is no number. -/
theorem SignedZero.split (h : SignedZero value) : ∃ first second n,
    value = first ++ '-' :: second ∧ PortText first n ∧ parsePort second = some 0 ∧
      ∀ m, ¬PortText second m := by
  obtain ⟨hfirst, hfront, hback, hne, hzeros⟩ := h
  rename_i first front zeros back n
  have hself : trim ('-' :: zeros) = '-' :: zeros := by
    refine trimBy_eq_self (fun c hc => ?_) (fun c hc => ?_)
    · obtain rfl := Option.some.inj hc
      rfl
    · rw [List.getLast?_cons_of_ne_nil hne] at hc
      rw [hzeros c (List.mem_of_mem_getLast? hc)]
      rfl
  have htrim : trim (front ++ '-' :: zeros ++ back) = '-' :: zeros := by
    rw [trim_append hfront hback, hself]
  refine ⟨first, _, n, rfl, hfirst, parsePort_signedZero htrim hne hzeros, fun m hm => ?_⟩
  exact hm.noDash (List.mem_append_left _ (List.mem_append_right _ List.mem_cons_self))

theorem parsePortRange_text (h : PortRangeText value n m) :
    parsePortRange value = some (portsBetween (BitVec.ofNat 16 n) (BitVec.ofNat 16 m)) := by
  cases h with
  | port hport =>
    rw [parsePortRange_eq, if_neg hport.noDash, parsePort_portText hport, Option.map_some]
    exact congrArg some (ite_self _).symm
  | range hfirst hsecond =>
    rename_i first second
    obtain ⟨hbefore, hafter⟩ := before_after_append hfirst.noDash second
    rw [parsePortRange_eq, if_pos (List.mem_append_right _ List.mem_cons_self), hbefore, hafter,
      parsePort_portText hfirst, parsePort_portText hsecond, Option.bind_some, Option.map_some]

theorem PortRangeText.toNat (h : PortRangeText value n m) :
    (BitVec.ofNat 16 n).toNat = n ∧ (BitVec.ofNat 16 m).toNat = m := by
  cases h with
  | port hport => exact ⟨hport.toNat, hport.toNat⟩
  | range hfirst hsecond => exact ⟨hfirst.toNat, hsecond.toNat⟩

theorem portRangeText_of_read {range : DestinationPortRange}
    (h : parsePortRange value = some range) :
    (∃ n m, PortRangeText value n m) ∨ SignedZero value := by
  rw [parsePortRange_eq] at h
  split_ifs at h with hdash
  · obtain ⟨p, hfirst, h⟩ := Option.bind_eq_some_iff.mp h
    obtain ⟨q, hsecond, -⟩ := Option.map_eq_some_iff.mp h
    have hp := portText_of_parsePort hfirst notMem_before
    rw [eq_before_after hdash]
    obtain hq | ⟨zeros, htrim, hne, hzeros⟩ := parsePort_cases hsecond
    · exact .inl ⟨_, _, .range hp hq⟩
    · obtain ⟨front, back, hafter, hfront, hback⟩ := trim_split (after '-' value)
      rw [hafter, htrim]
      exact .inr (.mk hp hfront hback hne hzeros)
  · obtain ⟨p, hp, -⟩ := Option.map_eq_some_iff.mp h
    exact .inl ⟨_, _, .port (portText_of_parsePort hp hdash)⟩

theorem SignedZero.isSome_parsePortRange (h : SignedZero value) :
    (parsePortRange value).isSome = true := by
  obtain ⟨first, second, n, rfl, hfirst, hsecond, -⟩ := h.split
  obtain ⟨hbefore, hafter⟩ := before_after_append hfirst.noDash second
  rw [parsePortRange_eq, if_pos (List.mem_append_right _ List.mem_cons_self), hbefore, hafter,
    parsePort_portText hfirst, hsecond, Option.bind_some, Option.map_some, Option.isSome_some]

theorem SignedZero.not_portRangeText (h : SignedZero value) : ¬PortRangeText value n m := by
  obtain ⟨first, second, k, rfl, hfirst, -, hnone⟩ := h.split
  have hafter := (before_after_append hfirst.noDash second).2
  generalize htext : first ++ '-' :: second = text
  intro hrange
  cases hrange with
  | port hport =>
    refine hport.noDash ?_
    rw [← htext]
    exact List.mem_append_right _ List.mem_cons_self
  | range hfirst' hsecond' =>
    rename_i first' second'
    have hafter' := (before_after_append hfirst'.noDash second').2
    rw [← htext, hafter] at hafter'
    exact hnone m (hafter' ▸ hsecond')

/-- `parse_port_range` takes what its grammar allows, and besides only a zero with a sign for the
    second number. -/
theorem portRangeExact_iff (value : Text) : PortRangeExact value ↔ ¬SignedZero value := by
  constructor
  · intro hexact hzero
    obtain ⟨range, hread⟩ := Option.isSome_iff_exists.mp hzero.isSome_parsePortRange
    obtain ⟨n, m, hrange⟩ := hexact.only range hread
    exact hzero.not_portRangeText hrange
  · intro hzero
    constructor
    · intro range hread
      exact (portRangeText_of_read hread).resolve_right hzero
    · intro n m hrange
      refine ⟨_, parsePortRange_text hrange, fun rule hrule port => ?_⟩
      rw [matchesPortFilter_between hrule, hrange.toNat.1, hrange.toNat.2]

theorem signed_second_number : ¬PortRangeExact "80--0".toList := by
  intro hexact
  have hread : parsePortRange "80--0".toList = some ⟨0, 80⟩ := by decide
  obtain ⟨n, m, hrange⟩ := hexact.only _ hread
  generalize htext : "80--0".toList = text at hrange
  cases hrange with
  | port hport => exact absurd (htext ▸ hport.noDash) (by decide)
  | range hfirst hsecond =>
    rename_i first second
    have hafter := (before_after_append hfirst.noDash second).2
    have hsecond' : after '-' "80--0".toList = second := htext ▸ hafter
    exact absurd (hsecond' ▸ hsecond.noDash) (by decide)

end Ports

section Cidrs

def IsOctet (text : Text) (n : ℕ) : Prop :=
  decimal text = some n ∧ n ≤ 255 ∧ (text.head? = some '0' → text = ['0'])

/-- `a.b.c.d`, and the address in host order. -/
inductive DottedQuad : Text → BitVec 32 → Prop
  | octets {a b c d : Text} {i j k l : ℕ} : IsOctet a i → IsOctet b j → IsOctet c k → IsOctet d l →
      DottedQuad (a ++ '.' :: (b ++ '.' :: (c ++ '.' :: d)))
        (BitVec.ofNat 32 (((i * 256 + j) * 256 + k) * 256 + l))

/-- A strict parser reads every dotted quad to its end, and nothing that does not begin with one. -/
structure StrictIpv4 (parser : Text → Option (InAddr × Text)) : Prop where
  reads : ∀ text address, DottedQuad text address → parser text = some (htonl address, [])
  only : ∀ text ip rest, parser text = some (ip, rest) →
    ∃ quad address, text = quad ++ rest ∧ DottedQuad quad address ∧ ip = htonl address

inductive CidrText : Text → BitVec 32 → ℕ → Prop
  | address {text : Text} {address : BitVec 32} : DottedQuad text address → CidrText text address 32
  | prefixed {quad digits : Text} {address : BitVec 32} {n : ℕ} : DottedQuad quad address →
      decimal digits = some n → n ≤ 32 → CidrText (quad ++ '/' :: digits) address n

/-- What is read is a subnet of the grammar, and each one is read as the addresses that agree with
    its own in the first bits. -/
structure CidrExact (env : Platform) (text : Text) : Prop where
  only : ∀ subnet, fromCidr env text = some subnet → ∃ address n, CidrText text address n
  reads : ∀ address n, CidrText text address n → ∃ subnet, fromCidr env text = some subnet ∧
    ∀ ip, subnet.addressInSubnet ip = true ↔ ntohl ip >>> (32 - n) = address >>> (32 - n)

def AddressWhole (env : Platform) (text : Text) : Prop :=
  ∀ ip rest, env.rtlIpv4StringToAddress (before '\x00' text) = some (ip, rest) →
    '\x00' ∉ text ∧ rest = []

/-- Where an address and the length of a prefix are read, nothing comes between the address and the
    slash or after the number. -/
def NothingFollows (env : Platform) (text : Text) : Prop :=
  if '/' ∈ text then
    ∀ n rest, fromCharsUnsigned 255 (after '/' text) = some (n, rest) → n ≤ 32 →
      AddressWhole env (before '/' text) ∧
        (ipFromString env (before '/' text) ≠ none → rest = [])
  else AddressWhole env text

variable {env : Platform} {text quad : Text} {address : BitVec 32} {n : ℕ}

theorem IsOctet.digits (h : IsOctet text n) : text.all isDigit = true := (decimal_eq_some h.1).2.1

theorem DottedQuad.notMem (h : DottedQuad quad address) {c : Char} (hdigit : isDigit c = false)
    (hdot : c ≠ '.') : c ∉ quad := by
  obtain ⟨ha, hb, hc, hd⟩ := h
  have hoctet : ∀ {part : Text} {n : ℕ}, IsOctet part n → c ∉ part := fun hpart hmem => by
    rw [List.all_eq_true.mp hpart.digits c hmem] at hdigit
    cases hdigit
  simp [hoctet ha, hoctet hb, hoctet hc, hoctet hd, hdot]

theorem DottedQuad.noSlash (h : DottedQuad quad address) : '/' ∉ quad :=
  h.notMem (by decide) (by decide)

theorem ipFromString_quad (hstrict : StrictIpv4 env.rtlIpv4StringToAddress)
    (h : DottedQuad quad address) : ipFromString env quad = some (htonl address) :=
  ipFromString_of_address ⟨h.notMem (by decide) (by decide), hstrict.reads quad address h⟩

theorem addressWhole_quad (hstrict : StrictIpv4 env.rtlIpv4StringToAddress)
    (h : DottedQuad quad address) : AddressWhole env quad := by
  intro ip rest hread
  have hnul : '\x00' ∉ quad := h.notMem (by decide) (by decide)
  have hcstr : before '\x00' quad = quad := List.takeWhile_eq_self_iff.mpr fun c hc =>
    decide_eq_true fun heq => hnul (heq ▸ hc)
  rw [hcstr, hstrict.reads quad address h] at hread
  exact ⟨hnul, (Prod.mk.inj (Option.some.inj hread)).2.symm⟩

theorem quad_of_addressWhole (hstrict : StrictIpv4 env.rtlIpv4StringToAddress)
    (hwhole : AddressWhole env text) {ip : InAddr} (hread : ipFromString env text = some ip) :
    ∃ address, DottedQuad text address ∧ ip = htonl address := by
  obtain ⟨⟨ip', rest⟩, hparsed, rfl⟩ := Option.map_eq_some_iff.mp hread
  obtain ⟨hnul, rfl⟩ := hwhole ip' rest hparsed
  have hcstr : before '\x00' text = text := List.takeWhile_eq_self_iff.mpr fun c hc =>
    decide_eq_true fun heq => hnul (heq ▸ hc)
  rw [hcstr] at hparsed
  obtain ⟨quad, address, htext, hquad, hip⟩ := hstrict.only text ip' [] hparsed
  rw [List.append_nil] at htext
  exact ⟨address, htext ▸ hquad, hip⟩

theorem dottedQuad_ones : DottedQuad "255.255.255.255".toList (BitVec.allOnes 32) := by
  have hoctet : IsOctet "255".toList 255 := by
    unfold IsOctet
    decide
  exact .octets hoctet hoctet hoctet hoctet

theorem fromCidr_quad (hstrict : StrictIpv4 env.rtlIpv4StringToAddress)
    (h : DottedQuad quad address) :
    fromCidr env quad = some ⟨htonl address, htonl (leadingOnes 32 32)⟩ := by
  have hmask : ipAddressV4 env "255.255.255.255".toList = htonl (leadingOnes 32 32) := by
    rw [ipAddressV4, ipFromString_quad hstrict dottedQuad_ones]
    rfl
  rw [fromCidr, if_neg h.noSlash, ipFromString_quad hstrict h, hmask]
  rfl

theorem fromCidr_prefixed (hstrict : StrictIpv4 env.rtlIpv4StringToAddress)
    (h : DottedQuad quad address) {digits : Text} (hdigits : decimal digits = some n) (hn : n ≤ 32) :
    fromCidr env (quad ++ '/' :: digits) = some ⟨htonl address, htonl (leadingOnes 32 n)⟩ := by
  obtain ⟨hbefore, hafter⟩ := before_after_append h.noSlash digits
  have hread : fromCharsUnsigned 255 digits = some (n, []) :=
    fromCharsUnsigned_of_decimal hdigits (by omega)
  have hmem : '/' ∈ quad ++ '/' :: digits := List.mem_append_right _ List.mem_cons_self
  simp only [fromCidr, hmem, if_true, hbefore, hafter, ipFromString_quad hstrict h, hread, hn]

theorem addressInSubnet_iff (address : BitVec 32) (hn : n ≤ 32) (ip : InAddr) :
    IpSubnet.addressInSubnet ⟨htonl address, htonl (leadingOnes 32 n)⟩ ip = true ↔
      ntohl ip >>> (32 - n) = address >>> (32 - n) := by
  have hback : ntohl (htonl address) = address := swapBytes_swapBytes address
  conv_rhs => rw [← hback]
  exact inSubnet_leadingOnes_iff hn (htonl address) ip

theorem CidrText.length_le (h : CidrText text address n) : n ≤ 32 := by
  cases h with
  | address hquad => exact Nat.le_refl 32
  | prefixed hquad hdigits hn => exact hn

theorem fromCidr_text (hstrict : StrictIpv4 env.rtlIpv4StringToAddress)
    (h : CidrText text address n) :
    fromCidr env text = some ⟨htonl address, htonl (leadingOnes 32 n)⟩ := by
  cases h with
  | address hquad => exact fromCidr_quad hstrict hquad
  | prefixed hquad hdigits hn => exact fromCidr_prefixed hstrict hquad hdigits hn

theorem addressWhole_of_none (h : ipFromString env text = none) : AddressWhole env text := by
  intro ip rest hread
  rw [ipFromString, hread] at h
  cases h

theorem nothingFollows_of_only (hstrict : StrictIpv4 env.rtlIpv4StringToAddress)
    (h : ∀ subnet, fromCidr env text = some subnet → ∃ address n, CidrText text address n) :
    NothingFollows env text := by
  unfold NothingFollows
  split_ifs with hslash
  · intro n rest hnumber hn
    cases hip : ipFromString env (before '/' text) with
    | none => exact ⟨addressWhole_of_none hip, fun hsome => absurd rfl hsome⟩
    | some ip =>
      have hread : fromCidr env text = some ⟨ip, htonl (leadingOnes 32 n)⟩ := by
        simp only [fromCidr, hslash, if_true, hip, hnumber, hn]
      obtain ⟨address, n', hcidr⟩ := h _ hread
      cases hcidr with
      | address hquad => exact absurd hslash hquad.noSlash
      | prefixed hquad hdigits hn' =>
        rename_i quad digits
        obtain ⟨hbefore, hafter⟩ := before_after_append hquad.noSlash digits
        rw [hafter, fromCharsUnsigned_of_decimal hdigits (by omega)] at hnumber
        rw [hbefore]
        exact ⟨addressWhole_quad hstrict hquad,
          fun _ => (Prod.mk.inj (Option.some.inj hnumber)).2.symm⟩
  · cases hip : ipFromString env text with
    | none => exact addressWhole_of_none hip
    | some ip =>
      have hread : fromCidr env text = some ⟨ip, ipAddressV4 env "255.255.255.255".toList⟩ := by
        simp only [fromCidr, hslash, if_false, hip, Option.map_some]
      obtain ⟨address, n, hcidr⟩ := h _ hread
      cases hcidr with
      | address hquad => exact addressWhole_quad hstrict hquad
      | prefixed hquad hdigits hn =>
        exact absurd (List.mem_append_right _ List.mem_cons_self) hslash

theorem cidrText_of_nothingFollows (hstrict : StrictIpv4 env.rtlIpv4StringToAddress)
    (hwhole : NothingFollows env text) {subnet : IpSubnet} (hread : fromCidr env text = some subnet) :
    ∃ address n, CidrText text address n := by
  unfold NothingFollows at hwhole
  unfold fromCidr at hread
  split_ifs at hwhole hread with hslash
  · cases hip : ipFromString env (before '/' text) with
    | none => simp [hip] at hread
    | some ip =>
      cases hnumber : fromCharsUnsigned 255 (after '/' text) with
      | none => simp [hip, hnumber] at hread
      | some r =>
        obtain ⟨n, rest⟩ := r
        simp only [hip, hnumber] at hread
        split_ifs at hread with hn
        obtain ⟨haddress, hrest⟩ := hwhole n rest hnumber hn
        rw [hip] at hrest
        obtain rfl := hrest (Option.some_ne_none ip)
        obtain ⟨address, hquad, -⟩ := quad_of_addressWhole hstrict haddress hip
        obtain ⟨digits, hdigits, hdecimal, -⟩ := fromCharsUnsigned_eq_some hnumber
        rw [List.append_nil] at hdigits
        rw [eq_before_after hslash]
        exact ⟨address, n, .prefixed hquad (hdigits ▸ hdecimal) hn⟩
  · obtain ⟨ip, hip, -⟩ := Option.map_eq_some_iff.mp hread
    obtain ⟨address, hquad, -⟩ := quad_of_addressWhole hstrict hwhole hip
    exact ⟨address, 32, .address hquad⟩

/-- `from_cidr` reads its grammar exactly where nothing follows what it reads, and the subnets it
    makes hold the addresses that they should. -/
theorem cidrExact_iff (hstrict : StrictIpv4 env.rtlIpv4StringToAddress) (text : Text) :
    CidrExact env text ↔ NothingFollows env text := by
  constructor
  · intro hexact
    exact nothingFollows_of_only hstrict hexact.only
  · intro hwhole
    constructor
    · intro subnet hread
      exact cidrText_of_nothingFollows hstrict hwhole hread
    · intro address n hcidr
      exact ⟨_, fromCidr_text hstrict hcidr, addressInSubnet_iff address hcidr.length_le⟩

end Cidrs

section Strict
variable {s rest part : Text} {n : ℕ}

def readOctet (s : Text) : Option (ℕ × Text) :=
  match decimal (s.takeWhile isDigit) with
  | some n =>
    if n ≤ 255 ∧ ((s.takeWhile isDigit).head? = some '0' → s.takeWhile isDigit = ['0']) then
      some (n, s.dropWhile isDigit)
    else none
  | none => none

def readPart (s : Text) : Option (ℕ × Text) :=
  match readOctet s with
  | some (n, '.' :: rest) => some (n, rest)
  | _ => none

def parseStrict (s : Text) : Option (InAddr × Text) :=
  (readPart s).bind fun (i, s) => (readPart s).bind fun (j, s) => (readPart s).bind fun (k, s) =>
    (readOctet s).map fun (l, rest) =>
      (htonl (BitVec.ofNat 32 (((i * 256 + j) * 256 + k) * 256 + l)), rest)

theorem readOctet_append (h : IsOctet part n) (hrest : ∀ c, rest.head? = some c → isDigit c = false) :
    readOctet (part ++ rest) = some (n, rest) := by
  have hdigits : ∀ c ∈ part, isDigit c = true := List.all_eq_true.mp h.digits
  have hstop : rest.takeWhile isDigit = [] ∧ rest.dropWhile isDigit = rest := by
    cases rest with
    | nil => exact ⟨rfl, rfl⟩
    | cons c rest => simp [hrest c rfl]
  unfold readOctet
  rw [List.takeWhile_append_of_pos hdigits, List.dropWhile_append_of_pos hdigits, hstop.1, hstop.2,
    List.append_nil, h.1]
  exact if_pos h.2

theorem readOctet_eq_some (h : readOctet s = some (n, rest)) : ∃ part, s = part ++ rest ∧
    IsOctet part n := by
  unfold readOctet at h
  split at h
  · rename_i hdecimal
    split_ifs at h with hoctet
    obtain ⟨rfl, rfl⟩ := Prod.mk.inj (Option.some.inj h)
    exact ⟨_, List.takeWhile_append_dropWhile.symm, hdecimal, hoctet⟩
  · cases h

theorem readPart_append (h : IsOctet part n) (rest : Text) :
    readPart (part ++ '.' :: rest) = some (n, rest) := by
  have hdot : ∀ c, ('.' :: rest).head? = some c → isDigit c = false := by
    intro c hc
    obtain rfl := Option.some.inj hc
    rfl
  rw [readPart, readOctet_append h hdot]
  rfl

theorem readPart_eq_some (h : readPart s = some (n, rest)) : ∃ part, s = part ++ '.' :: rest ∧
    IsOctet part n := by
  unfold readPart at h
  split at h
  · rename_i hoctet
    obtain ⟨rfl, rfl⟩ := Prod.mk.inj (Option.some.inj h)
    exact readOctet_eq_some hoctet
  · cases h

theorem parseStrict_strict : StrictIpv4 parseStrict := by
  constructor
  · rintro text address ⟨ha, hb, hc, hd⟩
    have hend : ∀ c, ([] : Text).head? = some c → isDigit c = false := fun _ hc => nomatch hc
    have hlast := readOctet_append hd hend
    rw [List.append_nil] at hlast
    simp only [parseStrict, readPart_append ha, readPart_append hb, readPart_append hc, hlast,
      Option.bind_some, Option.map_some]
  · intro text ip rest h
    obtain ⟨⟨i, s₁⟩, hi, h⟩ := Option.bind_eq_some_iff.mp h
    obtain ⟨⟨j, s₂⟩, hj, h⟩ := Option.bind_eq_some_iff.mp h
    obtain ⟨⟨k, s₃⟩, hk, h⟩ := Option.bind_eq_some_iff.mp h
    obtain ⟨⟨l, s₄⟩, hl, h⟩ := Option.map_eq_some_iff.mp h
    obtain ⟨rfl, rfl⟩ := Prod.mk.inj h
    obtain ⟨a, rfl, ha⟩ := readPart_eq_some hi
    obtain ⟨b, rfl, hb⟩ := readPart_eq_some hj
    obtain ⟨c, rfl, hc⟩ := readPart_eq_some hk
    obtain ⟨d, rfl, hd⟩ := readOctet_eq_some hl
    exact ⟨_, _, by simp, .octets ha hb hc hd, rfl⟩

def strictPlatform : Platform := { twoAddresses with rtlIpv4StringToAddress := parseStrict }

theorem cidrExact_private : CidrExact strictPlatform "10.0.0.0/8".toList ↔
    NothingFollows strictPlatform "10.0.0.0/8".toList :=
  @cidrExact_iff strictPlatform parseStrict_strict _

theorem letters_after_prefix : ¬CidrExact strictPlatform "10.0.0.0/8x".toList := by
  intro hexact
  have hread : (fromCidr strictPlatform "10.0.0.0/8x".toList).isSome = true := by decide
  obtain ⟨subnet, hsubnet⟩ := Option.isSome_iff_exists.mp hread
  obtain ⟨address, n, hcidr⟩ := hexact.only subnet hsubnet
  generalize htext : "10.0.0.0/8x".toList = text at hcidr
  cases hcidr with
  | address hquad => exact absurd (htext ▸ hquad.noSlash) (by decide)
  | prefixed hquad hdigits hn =>
    rename_i quad digits
    have hafter := (before_after_append hquad.noSlash digits).2
    rw [← htext] at hafter
    rw [← hafter] at hdigits
    exact absurd (decimal_eq_some hdigits).2.1 (by decide)

end Strict

end ProxySwitch.RuleTexts
