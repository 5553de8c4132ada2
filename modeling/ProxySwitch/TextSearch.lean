import Mathlib.Data.List.Infix
import Mathlib.Tactic.Common

set_option autoImplicit false

namespace ProxySwitch.TextSearch

section Parts
variable {α : Type} {s u v : List α} {c : α}

theorem suffix_concat_of_ne {init : List α} {z a : α} (h : z ≠ a) : ¬ init ++ [z] <:+ u ++ [a] := by
  rintro ⟨front, hfront⟩
  rw [← List.append_assoc] at hfront
  exact h (List.append_inj_right' hfront rfl |> List.singleton_inj.mp)

/-- A pattern that does not have the separator lies on one side of it. -/
theorem infix_append_cons_iff (h : c ∉ s) : s <:+: u ++ c :: v ↔ s <:+: u ∨ s <:+: v := by
  have hstart : ∀ {part rest : List α}, part ++ rest = s → rest <+: c :: v → rest = [] := by
    intro part rest hs hrest
    cases rest with
    | nil => rfl
    | cons d rest =>
      obtain rfl := (List.cons_prefix_cons.mp hrest).1
      refine absurd ?_ h
      rw [← hs]
      exact List.mem_append_right part List.mem_cons_self
  rw [List.infix_append_iff, List.infix_cons_iff]
  constructor
  · rintro (hu | (hcv | hv) | ⟨part, rest, hs, hpart, hrest⟩)
    · exact .inl hu
    · rw [hstart (List.nil_append s) hcv]
      exact .inl (List.nil_infix)
    · exact .inr hv
    · rw [hstart hs.symm hrest, List.append_nil] at hs
      rw [hs]
      exact .inl hpart.isInfix
  · rintro (hu | hv)
    · exact .inl hu
    · exact .inr (.inl (.inr hv))

/-- An occurrence starts in the first part or lies in the second one. -/
theorem infix_append_iff_start : s <:+: u ++ v ↔
    (∃ back, back ≠ [] ∧ back <:+ u ∧ s <+: back ++ v) ∨ s <:+: v := by
  induction u with
  | nil =>
    constructor
    · exact .inr
    · rintro (⟨back, hne, hback, -⟩ | hv)
      · exact absurd (List.suffix_nil.mp hback) hne
      · exact hv
  | cons a u ih =>
    rw [List.cons_append, List.infix_cons_iff, ih]
    constructor
    · rintro (hstart | ⟨back, hne, hback, hs⟩ | hv)
      · exact .inl ⟨a :: u, List.cons_ne_nil _ _, List.suffix_refl _, hstart⟩
      · exact .inl ⟨back, hne, hback.trans (List.suffix_cons a u), hs⟩
      · exact .inr hv
    · rintro (⟨back, hne, hback, hs⟩ | hv)
      · obtain rfl | hback := List.suffix_cons_iff.mp hback
        · exact .inl hs
        · exact .inr (.inl ⟨back, hne, hback, hs⟩)
      · exact .inr (.inr hv)

theorem infix_append_of_no_start {x y : α} (h : ∀ d, ¬ [x, y] <:+: u ++ [d]) :
    x :: y :: s <:+: u ++ v ↔ x :: y :: s <:+: v := by
  rw [infix_append_iff_start, or_iff_right]
  rintro ⟨back, hne, ⟨front, rfl⟩, hs⟩
  cases back with
  | nil => exact hne rfl
  | cons a back =>
    rw [List.cons_append] at hs
    obtain ⟨rfl, hs⟩ := List.cons_prefix_cons.mp hs
    refine h y ?_
    rw [List.append_assoc]
    refine List.infix_append_of_infix_right (List.IsPrefix.isInfix ?_)
    rw [List.cons_append, List.cons_prefix_cons]
    cases back with
    | nil => exact ⟨rfl, List.prefix_refl _⟩
    | cons b back =>
      obtain ⟨hb, -⟩ := List.cons_prefix_cons.mp (List.cons_prefix_cons.mp hs).2
      exact ⟨rfl, List.cons_prefix_cons.mpr ⟨hb, List.nil_prefix⟩⟩

theorem infix_concat_of_ne {init : List α} {z a : α} (h : z ≠ a) :
    init ++ [z] <:+: u ++ [a] ↔ init ++ [z] <:+: u := by
  rw [List.infix_concat_iff, or_iff_right (suffix_concat_of_ne h)]

theorem prefix_concat_of_ne {init : List α} {z a : α} (h : z ≠ a) :
    init ++ [z] <+: u ++ [a] ↔ init ++ [z] <+: u := by
  rw [List.prefix_concat_iff, or_iff_right]
  intro heq
  refine @suffix_concat_of_ne α u init z a h ?_
  rw [heq]

end Parts

section Pieces
variable {σ α β : Type}

/-- What a scanner cuts a text into; it gives no state where it cuts, and starts anew after it. -/
def pieces (step : σ → α → Option σ) (start : σ) : σ → List α → List (List α)
  | _, [] => [[]]
  | state, c :: rest =>
    match step state c with
    | none => [] :: pieces step start start rest
    | some next => (pieces step start next rest).modifyHead (c :: ·)

def Cut (step : σ → α → Option σ) (start state : σ) (text front : List α) (c : α) (back : List α) :
    Prop :=
  text = front ++ c :: back ∧
    pieces step start state text = pieces step start state front ++ pieces step start start back

variable {step : σ → α → Option σ} {start state next : σ} {text front back : List α} {c d : α}

theorem pieces_cons_none (h : step state c = none) : pieces step start state (c :: text) =
    [] :: pieces step start start text := by
  rw [pieces, h]

theorem pieces_cons_some (h : step state c = some next) : pieces step start state (c :: text) =
    (pieces step start next text).modifyHead (c :: ·) := by
  rw [pieces, h]

theorem pieces_eq_cons (state : σ) (text : List α) :
    ∃ first rest, pieces step start state text = first :: rest := by
  cases text with
  | nil => exact ⟨[], [], rfl⟩
  | cons c text =>
    cases hstep : step state c with
    | none => exact ⟨_, _, pieces_cons_none hstep⟩
    | some next =>
      obtain ⟨first, rest, h⟩ := pieces_eq_cons next text
      rw [pieces_cons_some hstep, h]
      exact ⟨_, _, rfl⟩

theorem Cut.cons_none (hstep : step state c = none) (h : Cut step start start text front d back) :
    Cut step start state (c :: text) (c :: front) d back := by
  obtain ⟨rfl, hpieces⟩ := h
  refine ⟨rfl, ?_⟩
  rw [pieces_cons_none hstep, pieces_cons_none hstep, hpieces, List.cons_append]

theorem Cut.cons_some (hstep : step state c = some next)
    (h : Cut step start next text front d back) :
    Cut step start state (c :: text) (c :: front) d back := by
  obtain ⟨rfl, hpieces⟩ := h
  refine ⟨rfl, ?_⟩
  obtain ⟨first, rest, hfront⟩ := @pieces_eq_cons σ α step start next front
  rw [pieces_cons_some hstep, pieces_cons_some hstep, hpieces, hfront]
  rfl

theorem Cut.here (hstep : step state c = none) : Cut step start state (c :: text) [] c text :=
  ⟨rfl, pieces_cons_none hstep⟩

theorem first_prefix {first : List α} {rest : List (List α)}
    (h : pieces step start state text = first :: rest) : first <+: text := by
  induction text generalizing state first rest with
  | nil =>
    rw [← (List.cons.inj h).1]
  | cons c text ih =>
    cases hstep : step state c with
    | none =>
      rw [pieces_cons_none hstep] at h
      rw [← (List.cons.inj h).1]
      exact List.nil_prefix
    | some next =>
      obtain ⟨head, tail, hnext⟩ := @pieces_eq_cons σ α step start next text
      rw [pieces_cons_some hstep, hnext] at h
      rw [← (List.cons.inj h).1]
      exact List.cons_prefix_cons.mpr ⟨rfl, ih hnext⟩

theorem infix_of_mem_pieces {piece : List α} (h : piece ∈ pieces step start state text) :
    piece <:+: text := by
  induction text generalizing state with
  | nil =>
    rw [List.mem_singleton.mp h]
  | cons c text ih =>
    cases hstep : step state c with
    | none =>
      rw [pieces_cons_none hstep] at h
      obtain rfl | h := List.mem_cons.mp h
      · exact List.nil_infix
      · exact List.infix_cons (ih h)
    | some next =>
      obtain ⟨head, tail, hnext⟩ := @pieces_eq_cons σ α step start next text
      rw [pieces_cons_some hstep, hnext] at h
      obtain rfl | h := List.mem_cons.mp h
      · exact List.IsPrefix.isInfix (List.cons_prefix_cons.mpr ⟨rfl, first_prefix hnext⟩)
      · refine List.infix_cons (@ih next ?_)
        rw [hnext]
        exact List.mem_cons_of_mem _ h

variable {f : α → β} {s : List β}

theorem prefix_pieces (h : s <+: text.map f) :
    (∃ first rest, pieces step start state text = first :: rest ∧ s <+: first.map f) ∨
      ∃ front c back, Cut step start state text front c back ∧
        ∃ y, s = front.map f ++ f c :: y ∧ y <+: back.map f := by
  induction text generalizing state s with
  | nil => exact .inl ⟨[], [], rfl, h⟩
  | cons c text ih =>
    cases s with
    | nil =>
      obtain ⟨first, rest, hfirst⟩ := @pieces_eq_cons σ α step start state (c :: text)
      exact .inl ⟨first, rest, hfirst, List.nil_prefix⟩
    | cons a s =>
      obtain ⟨rfl, hs⟩ := List.cons_prefix_cons.mp h
      cases hstep : step state c with
      | none => exact .inr ⟨[], c, text, Cut.here hstep, s, rfl, hs⟩
      | some next =>
        rcases @ih next s hs with ⟨first, rest, hfirst, hprefix⟩ | ⟨front, d, back, hcut, y, rfl, hy⟩
        · refine .inl ⟨c :: first, rest, ?_, List.cons_prefix_cons.mpr ⟨rfl, hprefix⟩⟩
          rw [pieces_cons_some hstep, hfirst]
          rfl
        · exact .inr ⟨c :: front, d, back, hcut.cons_some hstep, y, rfl, hy⟩

/-- An occurrence lies in one of the pieces or runs over a cut. -/
theorem infix_pieces_iff : s <:+: text.map f ↔
    (∃ piece ∈ pieces step start state text, s <:+: piece.map f) ∨
      ∃ front c back, Cut step start state text front c back ∧
        ∃ x y, s = x ++ f c :: y ∧ x <:+ front.map f ∧ y <+: back.map f := by
  constructor
  · intro h
    induction text generalizing state with
    | nil => exact .inl ⟨[], List.mem_singleton_self _, h⟩
    | cons c text ih =>
      rw [List.map_cons, List.infix_cons_iff] at h
      rcases h with hprefix | hinfix
      · rcases @prefix_pieces σ α β step start state (c :: text) f s hprefix with
          ⟨first, rest, hfirst, hs⟩ | ⟨front, d, back, hcut, y, hs, hy⟩
        · refine .inl ⟨first, ?_, hs.isInfix⟩
          rw [hfirst]
          exact List.mem_cons_self
        · exact .inr ⟨front, d, back, hcut, _, y, hs, List.suffix_refl _, hy⟩
      · cases hstep : step state c with
        | none =>
          rcases @ih start hinfix with ⟨piece, hpiece, hs⟩ | ⟨front, d, back, hcut, x, y, hs, hx, hy⟩
          · refine .inl ⟨piece, ?_, hs⟩
            rw [pieces_cons_none hstep]
            exact List.mem_cons_of_mem _ hpiece
          · exact .inr ⟨c :: front, d, back, hcut.cons_none hstep, x, y, hs,
              hx.trans (List.suffix_cons _ _), hy⟩
        | some next =>
          rcases @ih next hinfix with ⟨piece, hpiece, hs⟩ | ⟨front, d, back, hcut, x, y, hs, hx, hy⟩
          · obtain ⟨first, rest, hfirst⟩ := @pieces_eq_cons σ α step start next text
            rw [hfirst] at hpiece
            rw [pieces_cons_some hstep, hfirst]
            obtain rfl | hpiece := List.mem_cons.mp hpiece
            · exact .inl ⟨c :: piece, List.mem_cons_self, List.infix_cons hs⟩
            · exact .inl ⟨piece, List.mem_cons_of_mem _ hpiece, hs⟩
          · exact .inr ⟨c :: front, d, back, hcut.cons_some hstep, x, y, hs,
              hx.trans (List.suffix_cons _ _), hy⟩
  · rintro (⟨piece, hpiece, hs⟩ | ⟨front, c, back, ⟨rfl, -⟩, x, y, rfl, hx, hy⟩)
    · exact hs.trans ((infix_of_mem_pieces hpiece).map f)
    · obtain ⟨front', hfront⟩ := hx
      obtain ⟨back', hback⟩ := hy
      refine ⟨front', back', ?_⟩
      rw [List.map_append, List.map_cons, ← hfront, ← hback]
      simp only [List.append_assoc, List.cons_append]

end Pieces

end ProxySwitch.TextSearch
