import ProxySwitch.RuntimeStrings

set_option autoImplicit false

namespace ProxySwitch.WindowsPaths
open RuntimeStrings

def isDirectorySeparator (c : Char) : Bool := c == '\\' || c == '/'

def isWordChar (c : Char) : Bool := !isDirectorySeparator c

def components (path : Text) : List Text :=
  (path.splitOnP isDirectorySeparator).filter (· ≠ [])

/-- One of the texts ends, or the other begins, with a separator or is empty. -/
def separated (a b : Text) : Bool :=
  a.getLast?.all isDirectorySeparator || b.head?.all isDirectorySeparator

section RootLength

/-- The prefix `\\?\` or `\??\`. -/
def isExtended : Text → Bool
  | a :: b :: c :: d :: _ => a == '\\' && (b == '\\' || b == '?') && c == '?' && d == '\\'
  | _ => false

def isDevice (path : Text) : Bool :=
  isExtended path || match path with
    | a :: b :: c :: d :: _ =>
      isDirectorySeparator a && isDirectorySeparator b && (c == '.' || c == '?') &&
        isDirectorySeparator d
    | _ => false

def isDeviceUnc (path : Text) : Bool :=
  isDevice path && match path.drop 4 with
    | a :: b :: c :: d :: _ => a == 'U' && b == 'N' && c == 'C' && isDirectorySeparator d
    | _ => false

def isValidDriveChar (c : Char) : Bool := c.isAlpha

/-- The length of `server\share`. -/
def shareLength (path : Text) : ℕ :=
  (path.takeWhile isWordChar).length + match path.dropWhile isWordChar with
    | [] => 0
    | _ :: share => (share.takeWhile isWordChar).length + 1

def deviceLength (path : Text) : ℕ :=
  let name := path.takeWhile isWordChar
  name.length + if name = [] ∨ path.dropWhile isWordChar = [] then 0 else 1

/-- `PathInternal.GetRootLength`. -/
def getRootLength (path : Text) : ℕ :=
  if isDevice path && !isDeviceUnc path then 4 + deviceLength (path.drop 4)
  else if isDeviceUnc path then 8 + shareLength (path.drop 8)
  else match path with
    | a :: b :: rest =>
      if isDirectorySeparator a then
        if isDirectorySeparator b then 2 + shareLength rest else 1
      else if b == ':' && isValidDriveChar a then
        if rest.head?.any isDirectorySeparator then 3 else 2
      else 0
    | [a] => if isDirectorySeparator a then 1 else 0
    | [] => 0

end RootLength

def collapseSeparators : Text → Text
  | [] => []
  | c :: rest =>
    if !isDirectorySeparator c then c :: collapseSeparators rest
    else if rest.head?.any isDirectorySeparator then collapseSeparators rest
    else '\\' :: collapseSeparators rest

/-- `PathInternal.NormalizeDirectorySeparators`, which keeps two leading separators. -/
def normalizeDirectorySeparators : Text → Text
  | [] => []
  | c :: rest =>
    if isDirectorySeparator c then '\\' :: collapseSeparators rest
    else collapseSeparators (c :: rest)

/-- `Path.GetDirectoryName`. -/
def getDirectoryName (path : Text) : Option Text :=
  if path.all (· == ' ') || path.length ≤ getRootLength path then none
  else
    let rest := path.drop (getRootLength path)
    some (normalizeDirectorySeparators (path.take (getRootLength path) ++
      (rest.rdropWhile isWordChar).rdropWhile isDirectorySeparator))

section Components
variable {a b path : Text} {c : Char}

@[simp] theorem components_nil : components [] = [] := rfl

theorem components_append_cons (a b : Text) (hc : isDirectorySeparator c = true) :
    components (a ++ c :: b) = components a ++ components b := by
  unfold components
  rw [List.splitOnP_append_cons a b hc, List.filter_append]

theorem components_cons (b : Text) (hc : isDirectorySeparator c = true) :
    components (c :: b) = components b := components_append_cons [] b hc

theorem components_word (hne : a ≠ []) (h : ∀ c ∈ a, isDirectorySeparator c = false) :
    components a = [a] := by
  unfold components
  rw [List.splitOnP_eq_singleton h]
  simp [hne]

theorem components_append (h : separated a b = true) :
    components (a ++ b) = components a ++ components b := by
  obtain hlast | hhead := Bool.or_eq_true_iff.mp h
  · rcases List.eq_nil_or_concat' a with rfl | ⟨init, c, rfl⟩
    · rfl
    · rw [List.getLast?_concat, Option.all_some] at hlast
      rw [List.append_assoc, List.singleton_append, components_append_cons _ _ hlast,
        components_append_cons _ _ hlast, components_nil, List.append_nil]
  · cases b with
    | nil => rw [List.append_nil, components_nil, List.append_nil]
    | cons c rest =>
      rw [List.head?_cons, Option.all_some] at hhead
      rw [components_append_cons _ _ hhead, components_cons _ hhead]

theorem word_rtakeWhile (a : Text) : ∀ c ∈ a.rtakeWhile isWordChar, isDirectorySeparator c = false := by
  intro c hc
  simpa [isWordChar] using List.mem_rtakeWhile_imp hc

theorem last_rdropWhile_word (a : Text) :
    (a.rdropWhile isWordChar).getLast?.all isDirectorySeparator = true := by
  by_cases hne : a.rdropWhile isWordChar = []
  · rw [hne]
    rfl
  · rw [List.getLast?_eq_some_getLast hne, Option.all_some]
    simpa [isWordChar] using List.rdropWhile_last_not isWordChar a hne

theorem exists_first_word (b : Text) : ∃ word rest, b = word ++ rest ∧
    (∀ c ∈ word, isDirectorySeparator c = false) ∧
      rest.head?.all isDirectorySeparator = true := by
  induction b with
  | nil => exact ⟨[], [], rfl, nofun, rfl⟩
  | cons c l ih =>
    cases hc : isDirectorySeparator c with
    | true => exact ⟨[], c :: l, rfl, nofun, by simp [hc]⟩
    | false =>
      obtain ⟨word, rest, rfl, hword, hrest⟩ := ih
      refine ⟨c :: word, rest, rfl, fun x hx => ?_, hrest⟩
      obtain rfl | hx := List.mem_cons.mp hx
      · exact hc
      · exact hword x hx

theorem components_append_separators (h : ∀ c ∈ b, isDirectorySeparator c = true) :
    components (a ++ b) = components a := by
  induction b using List.reverseRecOn with
  | nil => rw [List.append_nil]
  | append_singleton l c ih =>
    have hc : isDirectorySeparator c = true := h c (by simp)
    rw [← List.append_assoc, components_append_cons _ _ hc, components_nil, List.append_nil,
      ih fun d hd => h d (by simp [hd])]

theorem components_prefix_iff : components a <+: components (a ++ b) ↔ separated a b = true := by
  constructor
  · intro hprefix
    by_contra hjoined
    obtain ⟨hlast, hhead⟩ := not_or.mp (mt Bool.or_eq_true_iff.mpr hjoined)
    obtain ⟨init, w, rfl, hw, hinit⟩ : ∃ init w, a = init ++ w ∧
        (∀ c ∈ w, isDirectorySeparator c = false) ∧
          init.getLast?.all isDirectorySeparator = true :=
      ⟨_, _, List.rdropWhile_append_rtakeWhile.symm, word_rtakeWhile a, last_rdropWhile_word a⟩
    obtain ⟨v, rest, rfl, hv, hrest⟩ := exists_first_word b
    have hwne : w ≠ [] := by
      rintro rfl
      exact hlast (by rwa [List.append_nil])
    have hvne : v ≠ [] := by
      rintro rfl
      exact hhead hrest
    have hwv : components (w ++ v) = [w ++ v] :=
      components_word (by simp [hwne]) fun c hc => (List.mem_append.mp hc).elim (hw c) (hv c)
    have hlong : components (init ++ w ++ (v ++ rest)) =
        components init ++ ((w ++ v) :: components rest) := by
      rw [List.append_assoc, ← List.append_assoc w v rest, components_append (by simp [separated, hinit]),
        components_append (a := w ++ v) (by simp [separated, hrest]), hwv, List.singleton_append]
    rw [hlong, components_append (by simp [separated, hinit]), components_word hwne hw,
      List.prefix_append_right_inj, List.cons_prefix_cons] at hprefix
    exact hvne (List.self_eq_append_right.mp hprefix.1)
  · intro h
    rw [components_append h]
    exact List.prefix_append _ _

theorem components_map {f : Char → Char}
    (hf : ∀ c, isDirectorySeparator (f c) = isDirectorySeparator c) (path : Text) :
    components (path.map f) = (components path).map (List.map f) := by
  have hsplit : (path.map f).splitOnP isDirectorySeparator =
      (path.splitOnP isDirectorySeparator).map (List.map f) := by
    induction path with
    | nil => rfl
    | cons c rest ih =>
      rw [List.map_cons, List.splitOnP_cons_eq_if_modifyHead, List.splitOnP_cons_eq_if_modifyHead,
        hf, ih]
      split
      · rfl
      · cases List.splitOnP isDirectorySeparator rest <;> rfl
  unfold components
  rw [hsplit, List.filter_map]
  refine congrArg _ (List.filter_congr fun word _ => ?_)
  simp

/-- Normalization keeps the first word and the components after it. -/
theorem splitOnP_collapseSeparators (path : Text) : ∃ word rest rest',
    (collapseSeparators path).splitOnP isDirectorySeparator = word :: rest ∧
      path.splitOnP isDirectorySeparator = word :: rest' ∧
        rest.filter (· ≠ []) = rest'.filter (· ≠ []) := by
  induction path with
  | nil => exact ⟨[], [], [], rfl, rfl, rfl⟩
  | cons c path ih =>
    obtain ⟨word, rest, rest', hcollapsed, hpath, hsame⟩ := ih
    have hcons : (c :: path).splitOnP isDirectorySeparator =
        if isDirectorySeparator c then [] :: word :: rest' else (c :: word) :: rest' := by
      rw [List.splitOnP_cons_eq_if_modifyHead, hpath]
      rfl
    unfold collapseSeparators
    cases hc : isDirectorySeparator c with
    | false =>
      rw [hcons, hc]
      refine ⟨c :: word, rest, rest', ?_, rfl, hsame⟩
      rw [Bool.not_false, if_pos rfl, List.splitOnP_cons_eq_if_modifyHead, hc, hcollapsed]
      rfl
    | true =>
      rw [hcons, hc, Bool.not_true, if_neg Bool.false_ne_true, if_pos rfl]
      split
      · rename_i hnext
        -- the rest begins with a separator, so its first word is empty
        have hword : word = [] := by
          cases path with
          | nil => cases hnext
          | cons d path =>
            rw [List.head?_cons, Option.any_some] at hnext
            rw [List.splitOnP_cons_eq_if_modifyHead, if_pos hnext] at hpath
            exact (List.cons.inj hpath).1.symm
        subst hword
        exact ⟨[], rest, [] :: rest', hcollapsed, rfl, by simpa using hsame⟩
      · refine ⟨[], word :: rest, word :: rest', ?_, rfl, ?_⟩
        · rw [List.splitOnP_cons_eq_if_modifyHead, hcollapsed]
          rfl
        · rw [List.filter_cons, List.filter_cons, hsame]

@[simp] theorem components_collapseSeparators (path : Text) :
    components (collapseSeparators path) = components path := by
  obtain ⟨word, rest, rest', hcollapsed, hpath, hsame⟩ := splitOnP_collapseSeparators path
  unfold components
  rw [hcollapsed, hpath, List.filter_cons, List.filter_cons, hsame]

@[simp] theorem components_normalize (path : Text) :
    components (normalizeDirectorySeparators path) = components path := by
  cases path with
  | nil => rfl
  | cons c rest =>
    simp only [normalizeDirectorySeparators]
    split
    · rename_i hc
      rw [components_cons rest hc, components_cons _ rfl, components_collapseSeparators]
    · exact components_collapseSeparators (c :: rest)

end Components

section DirectoryNames
variable {path dir : Text}

theorem drop_word (path : Text) (k : ℕ) :
    path.drop ((path.takeWhile isWordChar).length + k) = (path.dropWhile isWordChar).drop k := by
  induction path with
  | nil => simp
  | cons c rest ih =>
    cases hc : isWordChar c with
    | true =>
      rw [List.takeWhile_cons_of_pos hc, List.dropWhile_cons_of_pos hc, List.length_cons,
        Nat.add_right_comm, List.drop_succ_cons, ih]
    | false => simp [hc]

theorem head_dropWhile_word (path : Text) :
    (path.dropWhile isWordChar).head?.all isDirectorySeparator = true := by
  have h := List.head?_dropWhile_not isWordChar path
  cases hhead : (path.dropWhile isWordChar).head? with
  | none => rfl
  | some c =>
    rw [hhead] at h
    simpa [isWordChar] using h

theorem head_drop_shareLength (path : Text) :
    (path.drop (shareLength path)).head?.all isDirectorySeparator = true := by
  rw [shareLength, drop_word]
  cases path.dropWhile isWordChar with
  | nil => rfl
  | cons c share =>
    rw [List.drop_succ_cons, ← Nat.add_zero (List.takeWhile isWordChar share).length, drop_word]
    exact head_dropWhile_word share

theorem deviceLength_boundary (path : Text) :
    (path.drop (deviceLength path)).head?.all isDirectorySeparator = true ∨
      ∃ name c, path.take (deviceLength path) = name ++ [c] ∧ isDirectorySeparator c = true := by
  unfold deviceLength
  simp only
  split
  · rw [drop_word]
    exact .inl (head_dropWhile_word path)
  · rename_i hname
    obtain ⟨-, htail⟩ := not_or.mp hname
    obtain ⟨c, rest, hrest⟩ := List.exists_cons_of_ne_nil htail
    have hc := head_dropWhile_word path
    rw [hrest, List.head?_cons, Option.all_some] at hc
    refine .inr ⟨path.takeWhile isWordChar, c, ?_, hc⟩
    have hpath := List.takeWhile_append_dropWhile (p := isWordChar) (l := path)
    rw [hrest] at hpath
    calc path.take ((path.takeWhile isWordChar).length + 1)
        = (path.takeWhile isWordChar ++ c :: rest).take
            ((path.takeWhile isWordChar).length + 1) := by rw [hpath]
      _ = path.takeWhile isWordChar ++ [c] := by rw [List.take_length_add_append]; rfl

/-- A root ends where a separator stands, or it ends with one, or it is a drive or nothing. -/
theorem root_boundary (path : Text) :
    (path.drop (getRootLength path)).head?.all isDirectorySeparator = true ∨
      (path.take (getRootLength path)).getLast?.all isDirectorySeparator = true ∨
        ∃ drive, isDirectorySeparator drive = false ∧
          path.take (getRootLength path) = [drive, ':'] := by
  unfold getRootLength
  split
  · rw [← List.drop_drop, List.take_add]
    obtain hhead | ⟨name, c, hname, hc⟩ := deviceLength_boundary (path.drop 4)
    · exact .inl hhead
    · refine .inr (.inl ?_)
      rw [hname, ← List.append_assoc, List.getLast?_concat, Option.all_some, hc]
  · split
    · rw [← List.drop_drop]
      exact .inl (head_drop_shareLength _)
    · split
      · rename_i a b rest _ _
        split
        · rename_i ha
          split
          · rw [← List.drop_drop]
            exact .inl (head_drop_shareLength rest)
          · exact .inr (.inl (by simp [ha]))
        · rename_i ha
          split
          · rename_i hdrive
            split
            · rename_i hsep
              cases rest with
              | nil => cases hsep
              | cons c rest =>
                rw [List.head?_cons, Option.any_some] at hsep
                exact .inr (.inl (by simp [hsep]))
            · refine .inr (.inr ⟨a, eq_false_of_ne_true ha, ?_⟩)
              rw [Bool.and_eq_true, beq_iff_eq] at hdrive
              rw [hdrive.1]
              rfl
          · exact .inr (.inl rfl)
      · split
        · rename_i ha
          exact .inr (.inl (by simp [ha]))
        · exact .inr (.inl rfl)
      · exact .inl rfl

theorem dropLast_components_prefix (h : getDirectoryName path = some dir)
    (hlong : 2 ≤ (components path).length) : (components path).dropLast <+: components dir := by
  unfold getDirectoryName at h
  split at h
  · cases h
  simp only [Option.some.injEq] at h
  have hboundary := root_boundary path
  have hpath := List.take_append_drop (getRootLength path) path
  generalize path.take (getRootLength path) = root at h hboundary hpath
  generalize path.drop (getRootLength path) = rest at h hboundary hpath
  have hw := word_rtakeWhile rest
  have hlast := last_rdropWhile_word rest
  have hrest := List.rdropWhile_append_rtakeWhile (p := isWordChar) (l := rest)
  generalize rest.rtakeWhile isWordChar = w at hw hrest
  generalize rest.rdropWhile isWordChar = init at h hlast hrest
  subst hrest hpath
  -- the separators before the name make no components
  have hdir : components dir = components (root ++ init) := by
    have htrim := List.rdropWhile_append_rtakeWhile (p := isDirectorySeparator) (l := init)
    rw [← h, components_normalize]
    conv_rhs => rw [← htrim, ← List.append_assoc]
    exact (components_append_separators fun c hc => List.mem_rtakeWhile_imp hc).symm
  rw [hdir]
  by_cases hwne : w = []
  · rw [hwne, List.append_nil]
    exact List.dropLast_prefix _
  have hends : (root ++ init).getLast?.all isDirectorySeparator = true := by
    by_cases hinit : init = []
    · subst hinit
      rw [List.append_nil]
      obtain hhead | hroot | ⟨drive, hdrive, rfl⟩ := hboundary
      · obtain ⟨c, word, rfl⟩ := List.exists_cons_of_ne_nil hwne
        rw [List.nil_append, List.head?_cons, Option.all_some, hw c List.mem_cons_self] at hhead
        cases hhead
      · exact hroot
      · -- a name on a drive without a directory is one component
        have hone : components ([drive, ':'] ++ ([] ++ w)) = [[drive, ':'] ++ ([] ++ w)] := by
          refine components_word (by simp) fun c hc => ?_
          simp only [List.nil_append, List.cons_append, List.mem_cons] at hc
          obtain rfl | rfl | hc := hc
          · exact hdrive
          · rfl
          · exact hw c hc
        rw [hone] at hlong
        exact absurd hlong (by simp)
    · rw [List.getLast?_append_of_ne_nil _ hinit]
      exact hlast
  have hseparated : separated (root ++ init) w = true := by rw [separated, hends, Bool.true_or]
  have hdropped : (components (root ++ (init ++ w))).dropLast = components (root ++ init) := by
    rw [← List.append_assoc, components_append hseparated, components_word hwne hw,
      List.dropLast_concat]
  exact hdropped ▸ List.prefix_refl _

end DirectoryNames

end ProxySwitch.WindowsPaths
