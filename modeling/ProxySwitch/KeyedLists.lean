import Mathlib.Data.List.Forall2
import Mathlib.Data.List.Induction
import Mathlib.Tactic.Common

set_option autoImplicit false

namespace ProxySwitch.KeyedLists

variable {α : Type*} (p : α → Bool) (f : α → α)

def updateFirst : List α → List α
  | [] => []
  | x :: xs => if p x then f x :: xs else x :: updateFirst xs

variable {p f} {l : List α}

@[simp] theorem length_updateFirst : (updateFirst p f l).length = l.length := by
  induction l with
  | nil => rfl
  | cons x xs ih =>
    unfold updateFirst
    split <;> simp [ih]

theorem map_updateFirst {β : Type*} {g : α → β} (h : ∀ x, g (f x) = g x) :
    (updateFirst p f l).map g = l.map g := by
  induction l with
  | nil => rfl
  | cons x xs ih =>
    unfold updateFirst
    split <;> simp [h, ih]

theorem map_updateFirst_comp {β : Type*} {g : α → β} {p' : β → Bool} {f' : β → β}
    (hf : ∀ x, g (f x) = f' (g x)) :
    (updateFirst (fun x => p' (g x)) f l).map g = updateFirst p' f' (l.map g) := by
  induction l with
  | nil => rfl
  | cons x xs ih =>
    rw [List.map_cons]
    unfold updateFirst
    split
    · rw [List.map_cons, hf]
    · rw [List.map_cons, ih]

theorem mem_updateFirst {y : α} (h : y ∈ updateFirst p f l) :
    y ∈ l ∨ ∃ x ∈ l, p x = true ∧ y = f x := by
  induction l with
  | nil => cases h
  | cons x xs ih =>
    unfold updateFirst at h
    split at h
    · rename_i hx
      rcases List.mem_cons.mp h with rfl | hmem
      · exact .inr ⟨x, List.mem_cons_self, hx, rfl⟩
      · exact .inl (List.mem_cons_of_mem _ hmem)
    · rcases List.mem_cons.mp h with rfl | hmem
      · exact .inl List.mem_cons_self
      · rcases ih hmem with hin | ⟨x', hx', hp, rfl⟩
        · exact .inl (List.mem_cons_of_mem _ hin)
        · exact .inr ⟨x', List.mem_cons_of_mem _ hx', hp, rfl⟩

theorem mem_updateFirst_of_nodup {κ : Type*} {key : α → κ} {k : κ} {y : α}
    (hkeys : (l.map key).Nodup) (htest : ∀ x, p x = true ↔ key x = k)
    (h : y ∈ updateFirst p f l) : (y ∈ l ∧ key y ≠ k) ∨ ∃ x ∈ l, key x = k ∧ y = f x := by
  induction l with
  | nil => cases h
  | cons x xs ih =>
    obtain ⟨hnot, hrest⟩ := List.nodup_cons.mp hkeys
    unfold updateFirst at h
    split at h
    · rename_i hx
      obtain rfl := (htest x).mp hx
      rcases List.mem_cons.mp h with rfl | hmem
      · exact .inr ⟨x, List.mem_cons_self, rfl, rfl⟩
      · refine .inl ⟨List.mem_cons_of_mem _ hmem, fun heq => hnot ?_⟩
        exact List.mem_map.mpr ⟨y, hmem, heq⟩
    · rename_i hx
      rcases List.mem_cons.mp h with rfl | hmem
      · exact .inl ⟨List.mem_cons_self, fun heq => hx ((htest y).mpr heq)⟩
      · rcases ih hrest hmem with ⟨hin, hne⟩ | ⟨x', hx', hkey, rfl⟩
        · exact .inl ⟨List.mem_cons_of_mem _ hin, hne⟩
        · exact .inr ⟨x', List.mem_cons_of_mem _ hx', hkey, rfl⟩

theorem mem_updateFirst_of_find {x : α} (h : l.find? p = some x) : f x ∈ updateFirst p f l := by
  induction l with
  | nil => cases h
  | cons y ys ih =>
    unfold updateFirst
    by_cases hy : p y = true
    · rw [List.find?_cons_of_pos hy] at h
      obtain rfl := Option.some.inj h
      simp [hy]
    · rw [List.find?_cons_of_neg hy] at h
      simp [hy, ih h]

/-- Of entries that are all good, the update has to be good for the first match only. -/
theorem forall_mem_updateFirst_iff {P : α → Prop} (h : ∀ x ∈ l, P x) :
    (∀ y ∈ updateFirst p f l, P y) ↔ ∀ x, l.find? p = some x → P (f x) := by
  constructor
  · intro hafter x hx
    exact hafter (f x) (mem_updateFirst_of_find hx)
  · intro hfirst
    induction l with
    | nil => exact List.forall_mem_nil _
    | cons x xs ih =>
      obtain ⟨hx, hxs⟩ := List.forall_mem_cons.mp h
      unfold updateFirst
      by_cases hp : p x = true
      · rw [if_pos hp]
        exact List.forall_mem_cons.mpr ⟨hfirst x (List.find?_cons_of_pos hp), hxs⟩
      · rw [if_neg hp]
        refine List.forall_mem_cons.mpr ⟨hx, ih hxs fun y hy => hfirst y ?_⟩
        rw [List.find?_cons_of_neg hp, hy]

theorem updateFirst_eq_self (h : ∀ x, l.find? p = some x → f x = x) : updateFirst p f l = l := by
  induction l with
  | nil => rfl
  | cons x xs ih =>
    unfold updateFirst
    by_cases hp : p x = true
    · rw [if_pos hp, h x (List.find?_cons_of_pos hp)]
    · rw [if_neg hp, ih fun y hy => h y (by rw [List.find?_cons_of_neg hp, hy])]

theorem filter_eraseP {q : α → Bool} (h : ∀ x, l.find? p = some x → q x = false) :
    (l.eraseP p).filter q = l.filter q := by
  induction l with
  | nil => rfl
  | cons x xs ih =>
    by_cases hp : p x = true
    · rw [List.eraseP_cons_of_pos hp, List.filter_cons_of_neg (by simp [h x (List.find?_cons_of_pos hp)])]
    · rw [List.eraseP_cons_of_neg hp, List.filter_cons, List.filter_cons,
        ih fun y hy => h y (by rw [List.find?_cons_of_neg hp, hy])]

theorem pairwise_updateFirst {R : α → α → Prop} (hleft : ∀ x y, R x y → R (f x) y)
    (hright : ∀ x y, R x y → R x (f y)) (h : l.Pairwise R) : (updateFirst p f l).Pairwise R := by
  induction h with
  | nil => exact .nil
  | @cons x xs hx _ ih =>
    unfold updateFirst
    split
    · exact .cons (fun y hy => hleft x y (hx y hy)) (by assumption)
    · refine .cons (fun y hy => ?_) ih
      obtain hold | ⟨x', hx', -, rfl⟩ := mem_updateFirst hy
      · exact hx y hold
      · exact hright x x' (hx x' hx')

theorem sublist_updateFirst {β : Type*} {g : α → β} {q : α → Bool} (hg : ∀ x, g (f x) = g x)
    (hq : ∀ x, q x = true → q (f x) = true) :
    ((l.filter q).map g).Sublist (((updateFirst p f l).filter q).map g) := by
  induction l with
  | nil => exact .slnil
  | cons x xs ih =>
    unfold updateFirst
    by_cases hp : p x = true
    · rw [if_pos hp, List.filter_cons, List.filter_cons]
      by_cases hx : q x = true
      · rw [if_pos hx, if_pos (hq x hx), List.map_cons, List.map_cons, hg]
      · rw [if_neg hx]
        split
        · exact .cons _ (.refl _)
        · exact .refl _
    · rw [if_neg hp, List.filter_cons, List.filter_cons]
      split
      · exact .cons_cons _ ih
      · exact ih

theorem find?_eq_none_iff_forall : l.find? p = none ↔ ∀ x ∈ l, p x = false := by
  simp [List.find?_eq_none]

theorem eraseP_append_of_forall {x : α} (h : ∀ y ∈ l, p y = false) (hx : p x = true) :
    (l ++ [x]).eraseP p = l := by
  rw [List.eraseP_append_right _ (fun y hy => by simp [h y hy])]
  simp [hx]

theorem eraseP_ne_self_of_mem {x : α} (hx : x ∈ l) (hp : p x = true) : (l.eraseP p).length < l.length := by
  rw [List.length_eraseP_of_mem hx hp]
  have hpos := List.length_pos_of_mem hx
  omega

variable (p) in
/-- The first entry of every key is good precisely when each bad entry comes after a good one of
    its key. -/
theorem first_of_key_iff {κ : Type*} [BEq κ] [LawfulBEq κ] (key : α → κ) (good : α → Prop) :
    (∀ k x, l.find? (fun x => p x && key x == k) = some x → good x) ↔
      ∀ pre x post, l = pre ++ x :: post → p x = true → ¬good x →
        ∃ y ∈ pre, p y = true ∧ key y = key x ∧ good y := by
  constructor
  · rintro h pre x post rfl hx hbad
    have hfind : (pre ++ x :: post).find? (fun y => p y && key y == key x) =
        (pre.find? fun y => p y && key y == key x).or
          ((x :: post).find? fun y => p y && key y == key x) := List.find?_append
    cases hpre : pre.find? (fun y => p y && key y == key x) with
    | some y =>
      rw [hpre, Option.some_or] at hfind
      have hy := List.find?_some hpre
      simp only [Bool.and_eq_true, beq_iff_eq] at hy
      exact ⟨y, List.mem_of_find?_eq_some hpre, hy.1, hy.2, h (key x) y hfind⟩
    | none =>
      rw [hpre, Option.none_or, List.find?_cons_of_pos (by simp [hx])] at hfind
      exact absurd (h (key x) x hfind) hbad
  · intro h k x hfind
    by_contra hbad
    obtain ⟨hx, pre, post, hl, hnone⟩ := List.find?_eq_some_iff_append.mp hfind
    simp only [Bool.and_eq_true, beq_iff_eq] at hx
    obtain ⟨y, hy, hpy, hkey, -⟩ := h pre x post hl hx.1 hbad
    have hfirst := hnone y hy
    simp [hpy, hkey, hx.2] at hfirst

variable (p) in
/-- The first entry is good whenever some entry is, precisely when no bad entry stands before all
    the good ones. -/
theorem first_good_iff (good : α → Prop) :
    ((∃ x ∈ l, p x = true ∧ good x) → ∃ x, l.find? p = some x ∧ good x) ↔
      ∀ pre x post, l = pre ++ x :: post → p x = true → ¬good x →
        (∃ y ∈ post, p y = true ∧ good y) → ∃ y ∈ pre, p y = true ∧ good y := by
  constructor
  · rintro h pre x post rfl hx hbad ⟨own, hown, hboth⟩
    have hlater : own ∈ pre ++ x :: post := List.mem_append_right _ (List.mem_cons_of_mem _ hown)
    obtain ⟨first, hfind, hgood⟩ := h ⟨own, hlater, hboth⟩
    rw [List.find?_append] at hfind
    cases hpre : pre.find? p with
    | some y =>
      rw [hpre, Option.some_or] at hfind
      obtain rfl := Option.some.inj hfind
      exact ⟨y, List.mem_of_find?_eq_some hpre, List.find?_some hpre, hgood⟩
    | none =>
      rw [hpre, Option.none_or, List.find?_cons_of_pos hx] at hfind
      obtain rfl := Option.some.inj hfind
      exact absurd hgood hbad
  · rintro h ⟨own, hown, hp, hgood⟩
    cases hfind : l.find? p with
    | none => exact absurd hp (List.find?_eq_none.mp hfind own hown)
    | some first =>
      refine ⟨first, rfl, ?_⟩
      by_contra hbad
      obtain ⟨hfirst, pre, post, rfl, hnone⟩ := List.find?_eq_some_iff_append.mp hfind
      have hpre : ¬∃ y ∈ pre, p y = true ∧ good y := by
        rintro ⟨y, hy, hpy, -⟩
        have hfalse := hnone y hy
        simp [hpy] at hfalse
      rcases List.mem_append.mp hown with hfront | hback
      · exact hpre ⟨own, hfront, hp, hgood⟩
      · rcases List.mem_cons.mp hback with rfl | hpost
        · exact hbad hgood
        · exact hpre (h pre first post rfl hfirst hbad ⟨own, hpost, hp, hgood⟩)

/-- The first entry of a list with `P`, or none where no entry has it. -/
inductive IsFirst (P : α → Prop) : List α → Option α → Prop
  | nil : IsFirst P [] none
  | here {x : α} {l : List α} (hx : P x) : IsFirst P (x :: l) (some x)
  | later {x : α} {l : List α} {r : Option α} (hx : ¬P x) (h : IsFirst P l r) : IsFirst P (x :: l) r

theorem IsFirst.holds {P : α → Prop} {x : α} (h : IsFirst P l (some x)) : P x := by
  generalize hr : some x = r at h
  induction h with
  | nil => cases hr
  | here hy => exact Option.some.inj hr ▸ hy
  | later _ _ ih => exact ih hr

section Splits
variable {Q : List α → α → List α → Prop} {a : α}

theorem forall_split_cons_iff : (∀ pre x post, a :: l = pre ++ x :: post → Q pre x post) ↔
    Q [] a l ∧ ∀ pre x post, l = pre ++ x :: post → Q (a :: pre) x post := by
  constructor
  · intro h
    exact ⟨h [] a l rfl, fun pre x post hl => h (a :: pre) x post (congrArg (a :: ·) hl)⟩
  · rintro ⟨hhead, hrest⟩ pre x post hl
    cases pre with
    | nil =>
      obtain ⟨rfl, rfl⟩ := List.cons.inj hl
      exact hhead
    | cons b pre =>
      obtain ⟨rfl, htail⟩ := List.cons.inj hl
      exact hrest pre x post htail

theorem exists_split_cons_iff : (∃ pre x post, a :: l = pre ++ x :: post ∧ Q pre x post) ↔
    Q [] a l ∨ ∃ pre x post, l = pre ++ x :: post ∧ Q (a :: pre) x post := by
  have h := not_congr (forall_split_cons_iff (l := l) (a := a) (Q := fun pre x post => ¬Q pre x post))
  simpa only [not_forall, not_and_or, not_not, exists_prop] using h

end Splits

variable (p) in
/-- A search by test finds the first entry with `P` precisely when each entry on which the two
    differ comes after one that has both. -/
theorem isFirst_find?_iff (P : α → Prop) : IsFirst P l (l.find? p) ↔
    ∀ pre x post, l = pre ++ x :: post → ¬(p x = true ↔ P x) → ∃ y ∈ pre, p y = true ∧ P y := by
  induction l with
  | nil =>
    refine ⟨fun _ pre x post hl => ?_, fun _ => .nil⟩
    simp at hl
  | cons a l ih =>
    rw [forall_split_cons_iff]
    have hagree : (¬(p a = true ↔ P a) → ∃ y ∈ [], p y = true ∧ P y) ↔ (p a = true ↔ P a) := by
      simp
    rw [hagree]
    by_cases hpa : p a = true
    · rw [List.find?_cons_of_pos hpa]
      constructor
      · intro h
        have ha : P a := h.holds
        exact ⟨iff_of_true hpa ha, fun pre x post _ _ => ⟨a, List.mem_cons_self, hpa, ha⟩⟩
      · intro h
        exact .here (h.1.mp hpa)
    · rw [List.find?_cons_of_neg hpa]
      constructor
      · intro h
        generalize hr : l.find? p = r at h
        cases h with
        | here _ => exact absurd (List.find?_some hr) hpa
        | later ha h =>
          refine ⟨iff_of_false hpa ha, fun pre x post hl hdiffer => ?_⟩
          obtain ⟨y, hy, hboth⟩ := ih.mp (hr ▸ h) pre x post hl hdiffer
          exact ⟨y, List.mem_cons_of_mem _ hy, hboth⟩
      · rintro ⟨hsame, hrest⟩
        refine .later (fun ha => hpa (hsame.mpr ha)) (ih.mpr fun pre x post hl hdiffer => ?_)
        obtain ⟨y, hy, hboth⟩ := hrest pre x post hl hdiffer
        rcases List.mem_cons.mp hy with rfl | hy
        · exact absurd hboth.1 hpa
        · exact ⟨y, hy, hboth⟩

section Answers
variable {β : Type*} {g : α → Option β}

theorem exists_perm_findSome? {x : α} {b : β} (hx : x ∈ l) (hanswer : g x = some b) :
    ∃ l' : List α, l'.Perm l ∧ l'.findSome? g = some b := by
  obtain ⟨pre, post, rfl⟩ := List.append_of_mem hx
  exact ⟨x :: (pre ++ post), List.perm_middle.symm, by rw [List.findSome?_cons, hanswer]⟩

theorem findSome?_of_agree (h : ∀ x ∈ l, ∀ y ∈ l, ∀ a b, g x = some a → g y = some b → a = b)
    {x : α} {b : β} (hx : x ∈ l) (hanswer : g x = some b) : l.findSome? g = some b := by
  cases hfind : l.findSome? g with
  | none =>
    rw [List.findSome?_eq_none_iff.mp hfind x hx] at hanswer
    cases hanswer
  | some a =>
    obtain ⟨y, hy, hfirst⟩ := List.exists_of_findSome?_eq_some hfind
    rw [h y hy x hx a b hfirst hanswer]

/-- The first answer is the same in every order precisely when all answers agree. -/
theorem findSome?_perm_iff : (∀ l' : List α, l'.Perm l → l'.findSome? g = l.findSome? g) ↔
    ∀ x ∈ l, ∀ y ∈ l, ∀ a b, g x = some a → g y = some b → a = b := by
  constructor
  · intro h x hx y hy a b ha hb
    obtain ⟨first, hperm, hfirst⟩ := exists_perm_findSome? hx ha
    obtain ⟨second, hperm', hsecond⟩ := exists_perm_findSome? hy hb
    rw [h first hperm] at hfirst
    rw [h second hperm', hfirst] at hsecond
    exact Option.some.inj hsecond
  · intro h l' hperm
    cases hfind : l.findSome? g with
    | none =>
      rw [List.findSome?_eq_none_iff] at hfind ⊢
      exact fun x hx => hfind x (hperm.mem_iff.mp hx)
    | some b =>
      obtain ⟨y, hy, hfirst⟩ := List.exists_of_findSome?_eq_some hfind
      exact findSome?_of_agree
        (fun x hx z hz => h x (hperm.mem_iff.mp hx) z (hperm.mem_iff.mp hz))
        (hperm.mem_iff.mpr hy) hfirst

end Answers

section Relations
open List (Forall₂)
variable {R : α → α → Prop} {g : α → α} {l' : List α}

theorem forall₂_updateFirst (hp : ∀ x y, R x y → p x = p y)
    (hfg : ∀ x y, l.find? p = some x → l'.find? p = some y → R x y → R (f x) (g y))
    (h : Forall₂ R l l') : Forall₂ R (updateFirst p f l) (updateFirst p g l') := by
  induction h with
  | nil => exact .nil
  | @cons x y xs ys hxy hrest ih =>
    unfold updateFirst
    rw [← hp x y hxy]
    by_cases hx : p x = true
    · rw [if_pos hx, if_pos hx]
      refine .cons (hfg x y (List.find?_cons_of_pos hx) ?_ hxy) hrest
      exact List.find?_cons_of_pos ((hp x y hxy).symm.trans hx)
    · rw [if_neg hx, if_neg hx]
      refine .cons hxy (ih fun x' y' hx' hy' => hfg x' y' ?_ ?_)
      · rw [List.find?_cons_of_neg hx, hx']
      · rw [List.find?_cons_of_neg (hp x y hxy ▸ hx), hy']

theorem forall₂_updateFirst_left (hf : ∀ x y, l.find? p = some x → R x y → R (f x) y)
    (h : Forall₂ R l l') : Forall₂ R (updateFirst p f l) l' := by
  induction h with
  | nil => exact .nil
  | @cons x y xs ys hxy hrest ih =>
    unfold updateFirst
    by_cases hx : p x = true
    · rw [if_pos hx]
      exact .cons (hf x y (List.find?_cons_of_pos hx) hxy) hrest
    · rw [if_neg hx]
      refine .cons hxy (ih fun x' y' hx' => hf x' y' ?_)
      rw [List.find?_cons_of_neg hx, hx']

theorem forall₂_eraseP (hp : ∀ x y, R x y → p x = p y) (h : Forall₂ R l l') :
    Forall₂ R (l.eraseP p) (l'.eraseP p) := by
  induction h with
  | nil => exact .nil
  | @cons x y xs ys hxy hrest ih =>
    rw [List.eraseP_cons, List.eraseP_cons, ← hp x y hxy]
    cases p x with
    | true => exact hrest
    | false => exact .cons hxy ih

theorem forall₂_filter (hp : ∀ x y, R x y → p x = p y) (h : Forall₂ R l l') :
    Forall₂ R (l.filter p) (l'.filter p) :=
  List.rel_filter (fun x y hxy => Bool.eq_iff_iff.mp (hp x y hxy)) h

theorem forall₂_find?_eq_none (hp : ∀ x y, R x y → p x = p y) (h : Forall₂ R l l') :
    l.find? p = none ↔ l'.find? p = none := by
  induction h with
  | nil => rfl
  | @cons x y xs ys hxy hrest ih =>
    rw [List.find?_cons, List.find?_cons, ← hp x y hxy]
    cases p x with
    | true => exact iff_of_false (Option.some_ne_none _) (Option.some_ne_none _)
    | false => exact ih

end Relations

section Pairs
variable {κ : Type*} (key : α → κ) (R : α → α → Prop)

def Across (l : List α) : Prop := ∀ x ∈ l, ∀ y ∈ l, key x ≠ key y → R x y

variable {key R}

theorem across_of_subset {l' : List α} (hsub : l' ⊆ l) (h : Across key R l) : Across key R l' :=
  fun x hx y hy => h x (hsub hx) y (hsub hy)

theorem across_append_iff (hsymm : ∀ x y, R x y → R y x) {x : α} (h : Across key R l) :
    Across key R (l ++ [x]) ↔ ∀ y ∈ l, key y ≠ key x → R x y := by
  constructor
  · intro hafter y hy hne
    exact hafter x (by simp) y (List.mem_append_left _ hy) hne.symm
  · intro hpairs y hy z hz hne
    rcases List.mem_append.mp hy with hold | hnew
    · rcases List.mem_append.mp hz with hold' | hnew
      · exact h y hold z hold' hne
      · obtain rfl := List.mem_singleton.mp hnew
        exact hsymm _ _ (hpairs y hold hne)
    · obtain rfl := List.mem_singleton.mp hnew
      rcases List.mem_append.mp hz with hold | hnew
      · exact hpairs z hold hne.symm
      · exact absurd (congrArg key (List.mem_singleton.mp hnew).symm) hne

variable [DecidableEq κ]

variable (key) in
def updateKey (k : κ) (f : α → α) (l : List α) : List α :=
  l.map fun x => if key x = k then f x else x

theorem mem_updateKey {k : κ} {y : α} : y ∈ updateKey key k f l ↔
    (∃ x ∈ l, key x = k ∧ y = f x) ∨ y ∈ l ∧ key y ≠ k := by
  simp only [updateKey, List.mem_map]
  constructor
  · rintro ⟨x, hx, rfl⟩
    split
    · rename_i hk
      exact .inl ⟨x, hx, hk, rfl⟩
    · rename_i hk
      exact .inr ⟨hx, hk⟩
  · rintro (⟨x, hx, hk, rfl⟩ | ⟨hy, hk⟩)
    · exact ⟨x, hx, if_pos hk⟩
    · exact ⟨y, hy, if_neg hk⟩

/-- A change of one key is judged by its pairs with the other keys. -/
theorem across_updateKey_iff (hsymm : ∀ x y, R x y → R y x) (hkey : ∀ x, key (f x) = key x) {k : κ}
    (h : Across key R l) : Across key R (updateKey key k f l) ↔
      ∀ x ∈ l, key x = k → ∀ y ∈ l, key y ≠ k → R (f x) y := by
  constructor
  · intro hafter x hx hk y hy hother
    refine hafter (f x) (mem_updateKey.mpr (.inl ⟨x, hx, hk, rfl⟩)) y
      (mem_updateKey.mpr (.inr ⟨hy, hother⟩)) ?_
    rw [hkey, hk]
    exact hother.symm
  · intro hpairs x hx y hy hne
    obtain ⟨x', hx', hk, rfl⟩ | ⟨hx', hk⟩ := mem_updateKey.mp hx
    · obtain ⟨y', hy', hk', rfl⟩ | ⟨hy', hk'⟩ := mem_updateKey.mp hy
      · rw [hkey, hkey, hk, hk'] at hne
        exact absurd rfl hne
      · exact hpairs x' hx' hk y hy' hk'
    · obtain ⟨y', hy', hk', rfl⟩ | ⟨hy', hk'⟩ := mem_updateKey.mp hy
      · exact hsymm _ _ (hpairs y' hy' hk' x hx' hk)
      · exact h x hx' y hy' hne

end Pairs

section Dictionary
variable {κ ν : Type*} [DecidableEq κ]

def dropKey (k : κ) (d : List (κ × ν)) : List (κ × ν) := d.filter fun e => e.1 ≠ k

def setKey (k : κ) (v : ν) (d : List (κ × ν)) : List (κ × ν) := (k, v) :: dropKey k d

variable {d : List (κ × ν)} {k : κ} {v : ν} {e : κ × ν}

theorem mem_dropKey : e ∈ dropKey k d ↔ e ∈ d ∧ e.1 ≠ k := by simp [dropKey]

theorem mem_setKey : e ∈ setKey k v d ↔ e = (k, v) ∨ e ∈ d ∧ e.1 ≠ k := by
  rw [setKey, List.mem_cons, mem_dropKey]

end Dictionary

section Grouping
variable {κ ν : Type*}

def toDictionary [DecidableEq κ] (d : List (κ × ν)) : Option (List (κ × ν)) :=
  if (d.map Prod.fst).Nodup then some d else none

variable [BEq κ]

def addToGroup (k : κ) (x : α) : List (κ × List α) → List (κ × List α)
  | [] => [(k, [x])]
  | (k', xs) :: groups => if k' == k then (k', xs ++ [x]) :: groups else (k', xs) :: addToGroup k x groups

/-- The entries of each key in their order, and the keys in the order of their first entry. -/
def groupBy (key : α → κ) (l : List α) : List (κ × List α) :=
  l.foldl (fun groups x => addToGroup (key x) x groups) []

theorem mapM_eq_some_map {β : Type*} {f : α → Option β} {g : α → β} {l : List α}
    (h : ∀ x ∈ l, f x = some (g x)) : l.mapM f = some (l.map g) := by
  induction l with
  | nil => rfl
  | cons x l ih =>
    rw [List.mapM_cons, h x List.mem_cons_self, ih fun y hy => h y (List.mem_cons_of_mem _ hy)]
    rfl

theorem lookup_map (g : ν → α) (d : List (κ × ν)) (k : κ) :
    (d.map fun e => (e.1, g e.2)).lookup k = (d.lookup k).map g := by
  induction d with
  | nil => rfl
  | cons e d ih =>
    rw [List.map_cons, List.lookup_cons, List.lookup_cons, ih]
    cases k == e.1 <;> rfl

variable [LawfulBEq κ]

theorem lookup_of_nodup {d : List (κ × ν)} (h : (d.map Prod.fst).Nodup) {k : κ} {v : ν}
    (hmem : (k, v) ∈ d) : d.lookup k = some v := by
  induction d with
  | nil => cases hmem
  | cons e d ih =>
    rw [List.map_cons, List.nodup_cons] at h
    rcases List.mem_cons.mp hmem with rfl | hrest
    · rw [List.lookup_cons_self]
    · have hne : (k == e.1) = false := by
        refine beq_eq_false_iff_ne.mpr fun hk => h.1 ?_
        exact List.mem_map.mpr ⟨(k, v), hrest, hk⟩
      rw [List.lookup_cons, hne]
      exact ih h.2 hrest

theorem lookup_addToGroup (k : κ) (x : α) (groups : List (κ × List α)) (k' : κ) :
    ((addToGroup k x groups).lookup k').getD [] =
      (groups.lookup k').getD [] ++ if k == k' then [x] else [] := by
  induction groups with
  | nil =>
    unfold addToGroup
    rw [List.lookup_cons, List.lookup_nil, BEq.comm]
    cases k == k' <;> rfl
  | cons group groups ih =>
    obtain ⟨head, xs⟩ := group
    unfold addToGroup
    by_cases hhead : head = k
    · subst hhead
      rw [if_pos (beq_self_eq_true _), List.lookup_cons, List.lookup_cons, BEq.comm]
      cases head == k' <;> simp
    · rw [if_neg (mt beq_iff_eq.mp hhead), List.lookup_cons, List.lookup_cons]
      by_cases hk : k' = head
      · subst hk
        simp [Ne.symm hhead]
      · rw [beq_eq_false_iff_ne.mpr hk]
        exact ih

theorem lookup_groupBy (key : α → κ) (l : List α) (k : κ) :
    ((groupBy key l).lookup k).getD [] = l.filter fun x => key x == k := by
  induction l using List.reverseRecOn with
  | nil => rfl
  | append_singleton l x ih =>
    rw [groupBy, List.foldl_append, List.foldl_cons, List.foldl_nil, lookup_addToGroup,
      List.filter_append, ← ih]
    cases hk : key x == k <;> simp [groupBy, hk]

end Grouping

end ProxySwitch.KeyedLists
