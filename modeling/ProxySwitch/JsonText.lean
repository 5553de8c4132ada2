import Mathlib.Algebra.Group.Nat.Defs
import Mathlib.Tactic.Common

set_option autoImplicit false

namespace ProxySwitch.JsonText

inductive Json
  | null
  | bool (value : Bool)
  | number (literal : List Char)
  | string (text : List Char)
  | array (items : List Json)
  | object (members : List (List Char × Json))

section Strings

def hexValue (c : Char) : Option ℕ :=
  if c.isDigit then some (c.toNat - '0'.toNat)
  else if 'a' ≤ c ∧ c ≤ 'f' then some (c.toNat - 'a'.toNat + 10)
  else if 'A' ≤ c ∧ c ≤ 'F' then some (c.toNat - 'A'.toNat + 10)
  else none

def codeUnit (a b c d : Char) : Option ℕ :=
  match hexValue a, hexValue b, hexValue c, hexValue d with
  | some a, some b, some c, some d => some (((a * 16 + b) * 16 + c) * 16 + d)
  | _, _, _, _ => none

def isHighSurrogate (n : ℕ) : Bool := 0xD800 ≤ n && n < 0xDC00

def isLowSurrogate (n : ℕ) : Bool := 0xDC00 ≤ n && n < 0xE000

def unescape : Char → Option Char
  | '"' => some '"'
  | '\\' => some '\\'
  | '/' => some '/'
  | 'b' => some '\x08'
  | 'f' => some '\x0c'
  | 'n' => some '\n'
  | 'r' => some '\r'
  | 't' => some '\t'
  | _ => none

def isPlain (c : Char) : Bool := c != '"' && c != '\\' && 32 ≤ c.toNat

def readString : List Char → Option (List Char × List Char)
  | '"' :: rest => some ([], rest)
  | '\\' :: 'u' :: a :: b :: c :: d :: rest =>
    match codeUnit a b c d with
    | none => none
    | some unit =>
      if isHighSurrogate unit then
        match rest with
        | '\\' :: 'u' :: a :: b :: c :: d :: rest =>
          match codeUnit a b c d with
          | none => none
          | some low =>
            if isLowSurrogate low then
              (readString rest).map fun r =>
                (Char.ofNat (0x10000 + (unit - 0xD800) * 0x400 + (low - 0xDC00)) :: r.1, r.2)
            else none
        | _ => none
      else if isLowSurrogate unit then none
      else (readString rest).map fun r => (Char.ofNat unit :: r.1, r.2)
  | '\\' :: e :: rest =>
    match unescape e with
    | none => none
    | some c => (readString rest).map fun r => (c :: r.1, r.2)
  | c :: rest => if isPlain c then (readString rest).map fun r => (c :: r.1, r.2) else none
  | [] => none

theorem readString_quote (s : List Char) : readString ('"' :: s) = some ([], s) := by
  rw [readString]

inductive Escape : List Char → Char → Prop
  | simple {e c : Char} : unescape e = some c → Escape ['\\', e] c
  | unit {a b c d : Char} {n : ℕ} : codeUnit a b c d = some n →
      Escape ['\\', 'u', a, b, c, d] (Char.ofNat n)
  | pair {a b c d a' b' c' d' : Char} {n n' : ℕ} (r : Char) : codeUnit a b c d = some n →
      codeUnit a' b' c' d' = some n' →
      Escape ['\\', 'u', a, b, c, d, '\\', 'u', a', b', c', d'] r

end Strings

section Values

def isSpace (c : Char) : Bool := c == ' ' || c == '\t' || c == '\n' || c == '\r'

def skipSpace (s : List Char) : List Char := s.dropWhile isSpace

theorem skipSpace_cons {c : Char} (hc : isSpace c = true) (s : List Char) : skipSpace (c :: s) = skipSpace s :=
  List.dropWhile_cons_of_pos hc

theorem skipSpace_of_not {c : Char} (hc : isSpace c = false) (s : List Char) : skipSpace (c :: s) = c :: s :=
  List.dropWhile_cons_of_neg (by rw [hc]; exact Bool.false_ne_true)

def isExponent : List Char → Bool
  | [] => true
  | c :: rest =>
    let digits := match rest with
      | '+' :: digits | '-' :: digits => digits
      | digits => digits
    (c == 'e' || c == 'E') && digits != [] && digits.all Char.isDigit

def isFraction : List Char → Bool
  | '.' :: rest => rest.head?.any Char.isDigit && isExponent (rest.dropWhile Char.isDigit)
  | rest => isExponent rest

def isNumber (literal : List Char) : Bool :=
  let unsigned := match literal with
    | '-' :: unsigned => unsigned
    | unsigned => unsigned
  match unsigned with
  | '0' :: rest => isFraction rest
  | c :: rest => c.isDigit && isFraction (rest.dropWhile Char.isDigit)
  | [] => false

def isNumberChar (c : Char) : Bool :=
  c.isDigit || c == '-' || c == '+' || c == '.' || c == 'e' || c == 'E'

def readNumber (s : List Char) : Option (Json × List Char) :=
  if isNumber (s.takeWhile isNumberChar) then
    some (.number (s.takeWhile isNumberChar), s.dropWhile isNumberChar)
  else none

def readMore {α : Type} (close : Char) (again : List Char → Option (List α × List Char))
    (element : α) (s : List Char) : Option (List α × List Char) :=
  match skipSpace s with
  | [] => none
  | c :: rest =>
    if c = ',' then (again rest).map fun r => (element :: r.1, r.2)
    else if c = close then some ([element], rest)
    else none

mutual

/-- A value and what follows it, at most `fuel` deep and long. -/
def readValue : (fuel : ℕ) → List Char → Option (Json × List Char)
  | 0, _ => none
  | fuel + 1, s =>
    match skipSpace s with
    | '"' :: rest => (readString rest).map fun r => (.string r.1, r.2)
    | '[' :: rest =>
      if (skipSpace rest).head? = some ']' then some (.array [], (skipSpace rest).tail)
      else (readItems fuel rest).map fun r => (.array r.1, r.2)
    | '{' :: rest =>
      if (skipSpace rest).head? = some '}' then some (.object [], (skipSpace rest).tail)
      else (readMembers fuel rest).map fun r => (.object r.1, r.2)
    | 't' :: 'r' :: 'u' :: 'e' :: rest => some (.bool true, rest)
    | 'f' :: 'a' :: 'l' :: 's' :: 'e' :: rest => some (.bool false, rest)
    | 'n' :: 'u' :: 'l' :: 'l' :: rest => some (.null, rest)
    | rest => readNumber rest

def readItems : (fuel : ℕ) → List Char → Option (List Json × List Char)
  | 0, _ => none
  | fuel + 1, s =>
    match readValue fuel s with
    | none => none
    | some (item, rest) => readMore ']' (readItems fuel) item rest

def readMembers : (fuel : ℕ) → List Char → Option (List (List Char × Json) × List Char)
  | 0, _ => none
  | fuel + 1, s =>
    match skipSpace s with
    | '"' :: rest =>
      match readString rest with
      | none => none
      | some (name, rest) =>
        match skipSpace rest with
        | ':' :: rest =>
          match readValue fuel rest with
          | none => none
          | some (value, rest) => readMore '}' (readMembers fuel) (name, value) rest
        | _ => none
    | _ => none

end

attribute [local simp] readValue readItems readMembers

theorem readValue_skip {c : Char} (hc : isSpace c = true) (n : ℕ) (s : List Char) :
    readValue n (c :: s) = readValue n s := by
  cases n with
  | zero => simp
  | succ n => simp only [readValue, skipSpace_cons hc]

theorem readItems_skip {c : Char} (hc : isSpace c = true) (n : ℕ) (s : List Char) :
    readItems n (c :: s) = readItems n s := by
  cases n with
  | zero => simp
  | succ n => simp only [readItems, readValue_skip hc]

theorem readMembers_skip {c : Char} (hc : isSpace c = true) (n : ℕ) (s : List Char) :
    readMembers n (c :: s) = readMembers n s := by
  cases n with
  | zero => simp
  | succ n => simp only [readMembers, skipSpace_cons hc]

def parse (s : List Char) : Option Json :=
  match readValue (s.length + 1) s with
  | some (value, rest) => if rest.all isSpace then some value else none
  | none => none

end Values

section StringLemmas
variable {c : Char} {s x y tail text rest p : List Char}

theorem readString_plain (hc : isPlain c = true) (s : List Char) :
    readString (c :: s) = (readString s).map fun r => (c :: r.1, r.2) := by
  obtain ⟨⟨hquote, hbackslash⟩, -⟩ : (c ≠ '"' ∧ c ≠ '\\') ∧ 32 ≤ c.toNat := by
    simpa [isPlain] using hc
  rw [readString]
  · rw [if_pos hc]
  · exact hquote
  · exact fun _ _ _ _ _ h _ => hbackslash h
  · exact fun _ _ h _ => hbackslash h

theorem readString_control (hc : c.toNat < 32) (s : List Char) : readString (c :: s) = none := by
  have hplain : isPlain c = false := by
    have hlow : (decide (32 ≤ c.toNat)) = false := decide_eq_false (by omega)
    rw [isPlain, hlow, Bool.and_false]
  have hne : ∀ d : Char, 32 ≤ d.toNat → c ≠ d := by
    rintro d hd rfl
    omega
  rw [readString]
  · rw [hplain]
    rfl
  · exact hne '"' (by decide)
  · exact fun _ _ _ _ _ h _ => hne '\\' (by decide) h
  · exact fun _ _ h _ => hne '\\' (by decide) h

theorem readString_escape {e : Char} (he : unescape e = some c) (s : List Char) :
    readString ('\\' :: e :: s) = (readString s).map fun r => (c :: r.1, r.2) := by
  have hu : e ≠ 'u' := by
    rintro rfl
    cases he
  rw [readString]
  · rw [he]
  · exact fun _ _ _ _ _ h _ => hu h

theorem readString_cases (h : readString s = some (text, rest)) :
    (s = '"' :: rest ∧ text = []) ∨
      (∃ c s' text', isPlain c = true ∧ s = c :: s' ∧ text = c :: text' ∧
        readString s' = some (text', rest)) ∨
      ∃ p c s' text', Escape p c ∧ s = p ++ s' ∧ text = c :: text' ∧
        readString s' = some (text', rest) := by
  have hmap : ∀ {c : Char} {s' : List Char},
      (readString s').map (fun r => (c :: r.1, r.2)) = some (text, rest) →
        ∃ text', text = c :: text' ∧ readString s' = some (text', rest) := by
    intro c s' h
    obtain ⟨⟨text', rest'⟩, hread, hr⟩ := Option.map_eq_some_iff.mp h
    obtain ⟨rfl, rfl⟩ := Prod.mk.inj hr
    exact ⟨text', rfl, hread⟩
  unfold readString at h
  split at h
  · obtain ⟨rfl, rfl⟩ := Prod.mk.inj (Option.some.inj h)
    exact .inl ⟨rfl, rfl⟩
  · split at h
    · cases h
    · rename_i hunit
      split_ifs at h with hhigh hlow
      · split at h
        · split at h
          · cases h
          · rename_i hlow
            split_ifs at h
            obtain ⟨text', htext, hread⟩ := hmap h
            exact .inr (.inr ⟨_, _, _, text', .pair _ hunit hlow, rfl, htext, hread⟩)
        · cases h
      · obtain ⟨text', htext, hread⟩ := hmap h
        exact .inr (.inr ⟨_, _, _, text', .unit hunit, rfl, htext, hread⟩)
  · split at h
    · cases h
    · rename_i hescape
      obtain ⟨text', htext, hread⟩ := hmap h
      exact .inr (.inr ⟨_, _, _, text', .simple hescape, rfl, htext, hread⟩)
  · split_ifs at h with hplain
    obtain ⟨text', htext, hread⟩ := hmap h
    exact .inr (.inl ⟨_, _, text', hplain, rfl, htext, hread⟩)
  · cases h

theorem Escape.two_le_length (h : Escape p c) : 2 ≤ p.length := by
  cases h <;> simp

theorem hexValue_quote : hexValue '"' = none := by decide

/-- The quote is no hexadecimal digit, so it can only stand right after the backslash. -/
theorem Escape.eq_quote (h : Escape p c) (hquote : '"' ∈ p) : p = ['\\', '"'] ∧ c = '"' := by
  have hdigits : ∀ {a b c d : Char} {n : ℕ}, codeUnit a b c d = some n →
      '"' ≠ a ∧ '"' ≠ b ∧ '"' ≠ c ∧ '"' ≠ d := by
    intro a b c d n hunit
    unfold codeUnit at hunit
    refine ⟨?_, ?_, ?_, ?_⟩ <;>
    · rintro rfl
      rw [hexValue_quote] at hunit
      split at hunit <;> simp_all
  cases h with
  | @simple e c hescape =>
    obtain h | h | h : '"' = '\\' ∨ '"' = e ∨ '"' ∈ ([] : List Char) := by
      simpa only [List.mem_cons] using hquote
    · exact absurd h (by decide)
    · subst h
      exact ⟨rfl, (Option.some.inj hescape).symm⟩
    · cases h
  | unit hunit =>
    obtain ⟨ha, hb, hc, hd⟩ := hdigits hunit
    simp [ha, hb, hc, hd] at hquote
  | pair r hunit hlow =>
    obtain ⟨ha, hb, hc, hd⟩ := hdigits hunit
    obtain ⟨ha', hb', hc', hd'⟩ := hdigits hlow
    simp [ha, hb, hc, hd, ha', hb', hc', hd'] at hquote

theorem append_quote_split (h : y ++ '"' :: tail = p ++ s) (hp : '"' ∉ p) :
    ∃ y', y = p ++ y' ∧ s = y' ++ '"' :: tail := by
  obtain ⟨a, rfl, ha⟩ | ⟨y', rfl, hs⟩ := List.append_eq_append_iff.mp h
  · cases a with
    | nil => exact ⟨[], by simp, by simpa using ha.symm⟩
    | cons d a =>
      obtain ⟨rfl, -⟩ := List.cons.inj ha
      exact absurd (List.mem_append_right y List.mem_cons_self) hp
  · exact ⟨y', rfl, hs⟩

theorem readString_plains (hx : x.all isPlain = true) (tail : List Char) :
    readString (x ++ '"' :: tail) = some (x, tail) := by
  induction x with
  | nil => exact readString_quote tail
  | cons c x ih =>
    obtain ⟨hc, hx⟩ := Bool.and_eq_true_iff.mp hx
    rw [List.cons_append, readString_plain hc, ih hx]
    rfl

/-- What is read of a text before a quote: a quote of its own, fewer characters, or the text. -/
theorem readString_within (h : readString (y ++ '"' :: tail) = some (text, rest)) :
    '"' ∈ text.take y.length ∨ text.length < y.length ∨
      text = y ∧ y.all isPlain = true ∧ rest = tail := by
  induction hn : y.length using Nat.strongRecOn generalizing y text with
  | ind n ih =>
    subst hn
    obtain ⟨hs, rfl⟩ | ⟨c, s', text', hc, hs, rfl, hread⟩ | ⟨p, c, s', text', hescape, hs, rfl, hread⟩ :=
      readString_cases h
    · cases y with
      | nil => exact .inr (.inr ⟨rfl, rfl, (List.cons.inj hs).2.symm⟩)
      | cons d y => exact .inr (.inl (Nat.succ_pos _))
    · have hquote : '"' ∉ [c] := by
        intro hmem
        rw [← List.mem_singleton.mp hmem] at hc
        exact absurd hc (by decide)
      obtain ⟨y', rfl, rfl⟩ := append_quote_split (p := [c]) hs hquote
      obtain hmem | hshort | ⟨rfl, hplain, hrest⟩ := ih y'.length (by simp) hread rfl
      · exact .inl (List.mem_cons_of_mem c hmem)
      · exact .inr (.inl (by simpa using hshort))
      · exact .inr (.inr ⟨rfl, by simp [hc, hplain], hrest⟩)
    · have htwo := hescape.two_le_length
      by_cases hquote : '"' ∈ p
      · -- the quote after the text is escaped by the backslash before it
        obtain ⟨rfl, rfl⟩ := hescape.eq_quote hquote
        cases y with
        | nil => exact absurd (List.cons.inj hs).1 (by decide)
        | cons d y => exact .inl List.mem_cons_self
      · obtain ⟨y', rfl, rfl⟩ := append_quote_split hs hquote
        have hlt : y'.length < (p ++ y').length := by
          rw [List.length_append]
          omega
        obtain hmem | hshort | ⟨rfl, -, -⟩ := ih y'.length hlt hread rfl
        · obtain ⟨k, hk, hle⟩ : ∃ k, (p ++ y').length = k + 1 ∧ y'.length ≤ k :=
            ⟨p.length + y'.length - 1, by rw [List.length_append]; omega, by omega⟩
          rw [hk, List.take_succ_cons]
          exact .inl (List.mem_cons_of_mem c (List.take_subset_take_left _ hle hmem))
        · refine .inr (.inl ?_)
          rw [List.length_cons, List.length_append]
          omega
        · refine .inr (.inl ?_)
          rw [List.length_cons, List.length_append]
          omega

theorem readString_self (h : readString (x ++ '"' :: tail) = some (x, rest)) :
    x.all isPlain = true ∧ rest = tail := by
  by_cases hquote : '"' ∈ x
  · obtain ⟨front, back, rfl, hfront⟩ := List.eq_append_cons_of_mem hquote
    rw [List.append_assoc, List.cons_append] at h
    obtain hmem | hshort | ⟨hsame, -⟩ := readString_within h
    · rw [List.take_left] at hmem
      exact absurd hmem hfront
    · rw [List.length_append, List.length_cons] at hshort
      omega
    · exact absurd (congrArg List.length hsame) (by simp)
  · obtain hmem | hshort | ⟨-, hplain, hrest⟩ := readString_within h
    · exact absurd (List.mem_of_mem_take hmem) hquote
    · exact absurd hshort (Nat.lt_irrefl _)
    · exact ⟨hplain, hrest⟩

end StringLemmas

section ValueLemmas
variable {n : ℕ} {c : Char} {s s' x tail rest key : List Char} {value : Json} {more : List Json}
  {members : List (List Char × Json)}

theorem readValue_string (n : ℕ) (s : List Char) :
    readValue (n + 1) ('"' :: s) = (readString s).map fun r => (.string r.1, r.2) := by
  rw [readValue, skipSpace_of_not (by decide)]
  rfl

theorem readValue_true (n : ℕ) (s : List Char) :
    readValue (n + 1) ('t' :: 'r' :: 'u' :: 'e' :: s) = some (.bool true, s) := by
  rw [readValue, skipSpace_of_not (by decide)]
  rfl

theorem readValue_false (n : ℕ) (s : List Char) :
    readValue (n + 1) ('f' :: 'a' :: 'l' :: 's' :: 'e' :: s) = some (.bool false, s) := by
  rw [readValue, skipSpace_of_not (by decide)]
  rfl

theorem readValue_array (n : ℕ) (hs : (skipSpace s).head? ≠ some ']') :
    readValue (n + 1) ('[' :: s) = (readItems n s).map fun r => (.array r.1, r.2) := by
  rw [readValue, skipSpace_of_not (by decide)]
  exact if_neg hs

theorem readValue_object (n : ℕ) (hs : (skipSpace s).head? ≠ some '}') :
    readValue (n + 1) ('{' :: s) = (readMembers n s).map fun r => (.object r.1, r.2) := by
  rw [readValue, skipSpace_of_not (by decide)]
  exact if_neg hs

theorem readMore_comma {α : Type} (close : Char)
    (again : List Char → Option (List α × List Char)) (element : α) (s : List Char) :
    readMore close again element (',' :: s) = (again s).map fun r => (element :: r.1, r.2) := by
  rw [readMore, skipSpace_of_not (by decide)]
  exact if_pos rfl

theorem readMore_iff {α : Type} {close : Char} {again : List Char → Option (List α × List Char)}
    {element first : α} {more : List α} (hclose : close ≠ ',') :
    readMore close again element s = some (first :: more, rest) ↔ element = first ∧
      ((∃ s', skipSpace s = ',' :: s' ∧ again s' = some (more, rest)) ∨
        skipSpace s = close :: rest ∧ more = []) := by
  unfold readMore
  cases hskip : skipSpace s with
  | nil => simp
  | cons c s' =>
    by_cases hcomma : c = ','
    · subst hcomma
      have hne : ',' ≠ close := fun h => hclose h.symm
      simp only [if_pos, Option.map_eq_some_iff, Prod.mk.injEq, List.cons.injEq, Prod.exists,
        true_and, exists_eq_left', hne, false_and, or_false]
      constructor
      · rintro ⟨more', rest', hagain, ⟨rfl, rfl⟩, rfl⟩
        exact ⟨rfl, hagain⟩
      · rintro ⟨rfl, hagain⟩
        exact ⟨more, rest, hagain, ⟨rfl, rfl⟩, rfl⟩
    · simp only [hcomma, if_false, List.cons.injEq, false_and, exists_false, false_or]
      by_cases hc : c = close
      · simp only [hc, if_true, Option.some.injEq, Prod.mk.injEq, List.cons.injEq, true_and]
        constructor
        · rintro ⟨⟨rfl, rfl⟩, rfl⟩
          exact ⟨rfl, rfl, rfl⟩
        · rintro ⟨rfl, rfl, rfl⟩
          exact ⟨⟨rfl, rfl⟩, rfl⟩
      · simp [hc]

theorem readItems_iff : readItems (n + 1) s = some (value :: more, rest) ↔
    ∃ r, readValue n s = some (value, r) ∧
      ((∃ s', skipSpace r = ',' :: s' ∧ readItems n s' = some (more, rest)) ∨
        skipSpace r = ']' :: rest ∧ more = []) := by
  rw [readItems]
  cases hread : readValue n s with
  | none => simp
  | some item =>
    simp only [readMore_iff (show ']' ≠ ',' by decide)]
    constructor
    · rintro ⟨rfl, hmore⟩
      exact ⟨_, rfl, hmore⟩
    · rintro ⟨r, hitem, hmore⟩
      obtain rfl := Option.some.inj hitem
      exact ⟨rfl, hmore⟩

theorem readMembers_key (hkey : key.all isPlain = true) (n : ℕ) (s : List Char) :
    readMembers (n + 1) ('"' :: (key ++ '"' :: ':' :: s)) =
      match readValue n s with
      | none => none
      | some (value, r) => readMore '}' (readMembers n) (key, value) r := by
  rw [readMembers, skipSpace_of_not (by decide)]
  simp only [readString_plains hkey, skipSpace_of_not (show isSpace ':' = false by decide)]

theorem readMembers_iff (hkey : key.all isPlain = true) :
    readMembers (n + 1) ('"' :: (key ++ '"' :: ':' :: s)) = some ((key, value) :: members, rest) ↔
      ∃ r, readValue n s = some (value, r) ∧
        ((∃ s', skipSpace r = ',' :: s' ∧ readMembers n s' = some (members, rest)) ∨
          skipSpace r = '}' :: rest ∧ members = []) := by
  rw [readMembers_key hkey]
  cases hread : readValue n s with
  | none => simp
  | some item =>
    simp only [readMore_iff (show '}' ≠ ',' by decide)]
    constructor
    · rintro ⟨hvalue, hmore⟩
      obtain ⟨-, rfl⟩ := Prod.mk.inj hvalue
      exact ⟨_, rfl, hmore⟩
    · rintro ⟨r, hitem, hmore⟩
      obtain rfl := Option.some.inj hitem
      exact ⟨rfl, hmore⟩

theorem readString_self_iff :
    readString (x ++ '"' :: tail) = some (x, rest) ↔ x.all isPlain = true ∧ rest = tail := by
  constructor
  · exact readString_self
  · rintro ⟨hx, rfl⟩
    exact readString_plains hx rest

theorem readValue_quoted_iff :
    readValue (n + 1) ('"' :: (x ++ '"' :: tail)) = some (.string x, rest) ↔
      x.all isPlain = true ∧ rest = tail := by
  rw [readValue_string, ← readString_self_iff]
  simp

def quoted (x : List Char) : List Char := '"' :: (x ++ ['"'])

theorem readItems_quoted_iff {xs : List (List Char)} (hne : xs ≠ []) (hfuel : xs.length < n) :
    readItems n (List.intercalate [',', ' '] (xs.map quoted) ++ ']' :: tail) =
        some (xs.map Json.string, rest) ↔
      (∀ x ∈ xs, x.all isPlain = true) ∧ rest = tail := by
  induction xs generalizing n with
  | nil => exact absurd rfl hne
  | cons x xs ih =>
    obtain ⟨k, rfl⟩ : ∃ k, n = k + 1 + 1 := ⟨n - 2, by rw [List.length_cons] at hfuel; omega⟩
    rw [List.map_cons, List.map_cons, readItems_iff]
    cases xs with
    | nil =>
      have htext : List.intercalate [',', ' '] [quoted x] ++ ']' :: tail =
          '"' :: (x ++ '"' :: ']' :: tail) := by simp [quoted]
      rw [List.map_nil, htext]
      simp only [readValue_quoted_iff, List.map_nil]
      constructor
      · rintro ⟨_, ⟨hx, rfl⟩, ⟨s', hcomma, -⟩ | ⟨hclose, -⟩⟩
        · rw [skipSpace_of_not (by decide)] at hcomma
          exact absurd (List.cons.inj hcomma).1 (by decide)
        · rw [skipSpace_of_not (by decide)] at hclose
          exact ⟨by simpa using hx, (List.cons.inj hclose).2.symm⟩
      · rintro ⟨hx, rfl⟩
        exact ⟨_, ⟨hx x List.mem_cons_self, rfl⟩, .inr ⟨skipSpace_of_not (by decide) _, trivial⟩⟩
    | cons y xs =>
      have htext : List.intercalate [',', ' '] (quoted x :: List.map quoted (y :: xs)) ++
          ']' :: tail = '"' :: (x ++ '"' :: ',' :: ' ' ::
            (List.intercalate [',', ' '] (List.map quoted (y :: xs)) ++ ']' :: tail)) := by
        rw [List.map_cons, List.intercalate_cons_cons]
        simp [quoted]
      rw [htext]
      simp only [readValue_quoted_iff]
      have ih' := ih (n := k + 1) (List.cons_ne_nil y xs) (by simpa using hfuel)
      constructor
      · rintro ⟨_, ⟨hx, rfl⟩, ⟨s', hcomma, hitems⟩ | ⟨hclose, -⟩⟩
        · rw [skipSpace_of_not (by decide)] at hcomma
          obtain rfl := (List.cons.inj hcomma).2
          rw [readItems_skip (by decide)] at hitems
          obtain ⟨hxs, hrest⟩ := ih'.mp hitems
          exact ⟨List.forall_mem_cons.mpr ⟨hx, hxs⟩, hrest⟩
        · rw [skipSpace_of_not (by decide)] at hclose
          exact absurd (List.cons.inj hclose).1 (by decide)
      · rintro ⟨hall, hrest⟩
        obtain ⟨hx, hxs⟩ := List.forall_mem_cons.mp hall
        refine ⟨_, ⟨hx, rfl⟩, .inl ⟨_, skipSpace_of_not (by decide) _, ?_⟩⟩
        rw [readItems_skip (by decide)]
        exact ih'.mpr ⟨hxs, hrest⟩

theorem readMembers_comma_iff {P : Prop} (hkey : key.all isPlain = true)
    (hvalue : ∀ r, readValue n s = some (value, r) ↔ P ∧ r = ',' :: s') :
    readMembers (n + 1) ('"' :: (key ++ '"' :: ':' :: s)) = some ((key, value) :: members, rest) ↔
      P ∧ readMembers n s' = some (members, rest) := by
  rw [readMembers_iff hkey]
  simp only [hvalue]
  constructor
  · rintro ⟨_, ⟨hp, rfl⟩, ⟨s'', hcomma, hmembers⟩ | ⟨hclose, -⟩⟩
    · rw [skipSpace_of_not (by decide)] at hcomma
      exact ⟨hp, (List.cons.inj hcomma).2 ▸ hmembers⟩
    · rw [skipSpace_of_not (by decide)] at hclose
      exact absurd (List.cons.inj hclose).1 (by decide)
  · rintro ⟨hp, hmembers⟩
    exact ⟨_, ⟨hp, rfl⟩, .inl ⟨s', skipSpace_of_not (by decide) s', hmembers⟩⟩

theorem readMembers_close_iff {P : Prop} (hkey : key.all isPlain = true)
    (hvalue : ∀ r, readValue n s = some (value, r) ↔ P ∧ r = tail)
    (htail : skipSpace tail = '}' :: s') :
    readMembers (n + 1) ('"' :: (key ++ '"' :: ':' :: s)) = some ([(key, value)], rest) ↔
      P ∧ rest = s' := by
  rw [readMembers_iff hkey]
  simp only [hvalue]
  constructor
  · rintro ⟨_, ⟨hp, rfl⟩, ⟨s'', hcomma, -⟩ | ⟨hclose, -⟩⟩
    · rw [htail] at hcomma
      exact absurd (List.cons.inj hcomma).1 (by decide)
    · rw [htail] at hclose
      exact ⟨hp, (List.cons.inj hclose).2.symm⟩
  · rintro ⟨hp, rfl⟩
    exact ⟨tail, ⟨hp, rfl⟩, .inr ⟨htail, trivial⟩⟩

theorem readValue_array_iff {items : List Json} (hs : (skipSpace s).head? ≠ some ']') :
    readValue (n + 1) ('[' :: s) = some (.array items, rest) ↔
      readItems n s = some (items, rest) := by
  rw [readValue_array n hs]
  simp

theorem readValue_object_iff (hs : (skipSpace s).head? ≠ some '}') :
    readValue (n + 1) ('{' :: s) = some (.object members, rest) ↔
      readMembers n s = some (members, rest) := by
  rw [readValue_object n hs]
  simp

theorem parse_eq_some_iff : parse s = some value ↔
    ∃ r, readValue (s.length + 1) s = some (value, r) ∧ r.all isSpace = true := by
  unfold parse
  cases readValue (s.length + 1) s with
  | none => simp
  | some result =>
    obtain ⟨result, r⟩ := result
    simp only [Option.some.injEq, Prod.mk.injEq]
    split_ifs with hr
    · constructor
      · rintro h
        exact ⟨r, ⟨Option.some.inj h, rfl⟩, hr⟩
      · rintro ⟨_, ⟨rfl, rfl⟩, -⟩
        rfl
    · refine iff_of_false (by simp) ?_
      rintro ⟨_, ⟨rfl, rfl⟩, hspace⟩
      exact hr hspace

end ValueLemmas

section Writing

def Reads (text : List Char) (value : Json) : Prop :=
  ∀ n c tail, c = ',' ∨ c = '}' → readValue (n + 1) (text ++ c :: tail) = some (value, c :: tail)

def writeMembers : List (List Char × List Char) → List Char
  | [] => ['}']
  | [(key, text)] => '"' :: (key ++ '"' :: ':' :: (text ++ ['}']))
  | (key, text) :: more => '"' :: (key ++ '"' :: ':' :: (text ++ ',' :: writeMembers more))

def writeObject (members : List (List Char × List Char)) : List Char := '{' :: writeMembers members

variable {n : ℕ} {c : Char} {text encoded literal : List Char}

theorem reads_quoted (h : ∀ rest, readString (encoded ++ '"' :: rest) = some (text, rest)) :
    Reads (quoted encoded) (.string text) := by
  intro n c tail _
  have hquoted : quoted encoded ++ c :: tail = '"' :: (encoded ++ '"' :: c :: tail) := by
    simp [quoted]
  rw [hquoted, readValue_string, h]
  rfl

theorem readValue_literal (hc : isNumberChar c = true) (n : ℕ) (s : List Char) :
    readValue (n + 1) (c :: s) = readNumber (c :: s) := by
  have hne : ∀ d : Char, isNumberChar d = false → c ≠ d := by
    rintro d hd rfl
    rw [hc] at hd
    cases hd
  have hspace : isSpace c = false := by
    simp only [isSpace, Bool.or_eq_false_iff, beq_eq_false_iff_ne]
    exact ⟨⟨⟨hne ' ' (by decide), hne '\t' (by decide)⟩, hne '\n' (by decide)⟩, hne '\r' (by decide)⟩
  rw [readValue, skipSpace_of_not hspace]
  split
  · rename_i h
    exact absurd (List.cons.inj h).1 (hne '"' (by decide))
  · rename_i h
    exact absurd (List.cons.inj h).1 (hne '[' (by decide))
  · rename_i h
    exact absurd (List.cons.inj h).1 (hne '\x7b' (by decide))
  · rename_i h
    exact absurd (List.cons.inj h).1 (hne 't' (by decide))
  · rename_i h
    exact absurd (List.cons.inj h).1 (hne 'f' (by decide))
  · rename_i h
    exact absurd (List.cons.inj h).1 (hne 'n' (by decide))
  · rfl

theorem reads_number (hnumber : isNumber literal = true) (hchars : literal.all isNumberChar = true) :
    Reads literal (.number literal) := by
  intro n c tail hc
  have hstop : isNumberChar c = false := by
    obtain rfl | rfl := hc <;> decide
  have hall : ∀ d ∈ literal, isNumberChar d = true := List.all_eq_true.mp hchars
  have htake : (literal ++ c :: tail).takeWhile isNumberChar = literal := by
    rw [List.takeWhile_append_of_pos hall, List.takeWhile_cons_of_neg (by simp [hstop]),
      List.append_nil]
  have hdrop : (literal ++ c :: tail).dropWhile isNumberChar = c :: tail := by
    rw [List.dropWhile_append_of_pos hall, List.dropWhile_cons_of_neg (by simp [hstop])]
  have hread : readNumber (literal ++ c :: tail) = some (.number literal, c :: tail) := by
    rw [readNumber, htake, hdrop, if_pos hnumber]
  cases literal with
  | nil => cases hnumber
  | cons d literal =>
    rw [List.cons_append, readValue_literal (hall d List.mem_cons_self)]
    exact hread

theorem length_lt_writeMembers (members : List (List Char × List Char)) :
    members.length < (writeMembers members).length := by
  fun_induction writeMembers members with
  | case1 => simp
  | case2 key text => simp only [List.length_cons, List.length_append, List.length_nil]; omega
  | case3 key text more _ ih => simp only [List.length_cons, List.length_append]; omega

theorem readMembers_write {members : List (List Char × List Char × Json)} (hne : members ≠ [])
    (h : ∀ m ∈ members, m.1.all isPlain = true ∧ Reads m.2.1 m.2.2) (hfuel : members.length < n) :
    readMembers n (writeMembers (members.map fun m => (m.1, m.2.1))) =
      some (members.map fun m => (m.1, m.2.2), []) := by
  induction members generalizing n with
  | nil => exact absurd rfl hne
  | cons m members ih =>
    obtain ⟨key, text, value⟩ := m
    obtain ⟨k, rfl⟩ : ∃ k, n = k + 1 + 1 := ⟨n - 2, by rw [List.length_cons] at hfuel; omega⟩
    obtain ⟨⟨hkey, hreads⟩, hrest⟩ := List.forall_mem_cons.mp h
    cases members with
    | nil =>
      rw [List.map_singleton, writeMembers, readMembers_key hkey]
      simp only [hreads k '}' [] (.inr rfl), readMore, skipSpace_of_not (show isSpace '}' = false by decide)]
      rfl
    | cons next members =>
      have hmore := ih (n := k + 1) (List.cons_ne_nil _ _) hrest (by simpa using hfuel)
      rw [List.map_cons, List.map_cons] at hmore ⊢
      rw [writeMembers, readMembers_key hkey]
      · simp only [hreads k ',' _ (.inl rfl), readMore_comma, hmore, Option.map_some]
        rfl
      · simp

/-- What is written is read back. -/
theorem parse_writeObject {members : List (List Char × List Char × Json)} (hne : members ≠ [])
    (h : ∀ m ∈ members, m.1.all isPlain = true ∧ Reads m.2.1 m.2.2) :
    parse (writeObject (members.map fun m => (m.1, m.2.1))) =
      some (.object (members.map fun m => (m.1, m.2.2))) := by
  have hfuel := length_lt_writeMembers (members.map fun m => (m.1, m.2.1))
  rw [List.length_map] at hfuel
  have hread := readMembers_write hne h (n := (writeMembers (members.map fun m => (m.1, m.2.1))).length + 1) (by omega)
  have hopen : (skipSpace (writeMembers (members.map fun m => (m.1, m.2.1)))).head? ≠ some '}' := by
    obtain ⟨⟨key, text, value⟩, more, rfl⟩ := List.exists_cons_of_ne_nil hne
    have hquote : ∃ s, writeMembers ((key, text) :: more.map fun m => (m.1, m.2.1)) = '"' :: s := by
      cases more <;> exact ⟨_, rfl⟩
    obtain ⟨s, hs⟩ := hquote
    rw [List.map_cons, hs, skipSpace_of_not (by decide)]
    exact fun h => absurd (Option.some.inj h) (by decide)
  rw [parse_eq_some_iff, writeObject, List.length_cons]
  exact ⟨[], (readValue_object_iff hopen).mpr hread, rfl⟩

end Writing

end ProxySwitch.JsonText
