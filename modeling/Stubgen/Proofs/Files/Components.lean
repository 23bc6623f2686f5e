import Mathlib.Data.List.Infix
import Mathlib.Data.List.TakeWhile
import Stubgen.Proofs.Files.Writing

/-!
# Components of a path

Two spellings of a path that differ in empty names and in dots, except for a dot at the beginning,
have the same components. Joining a name adds one component, going to the directory that holds a
path takes the last one away, and so a path is held by those only whose components begin its own.
-/

namespace Stubgen.Files

namespace Path

/-- The components of a text: its anchor if there is one, and the names after it that are not
dots. -/
def componentsOf (text : List Char) : List (List Char) :=
  [anchor text].filter (· ≠ []) ++ (names (afterAnchor text)).filter (· ≠ ['.'])

/-- The components of a path. -/
def components (path : Path) : List String :=
  (componentsOf path.text.toList).map String.ofList

variable {directory path outer holder : Path} {name : String} {text front rest : List Char}

/-! ## Taking a text apart -/

/-- A beginning of what follows the anchor leaves the anchor as it is, unless it is a dot. -/
theorem anchor_append_of_prefix (h : rest <+: afterAnchor text) (hdot : rest ≠ ['.']) :
    anchor (anchor text ++ rest) = anchor text := by
  have hsplit := anchor_append_afterAnchor text
  obtain ⟨more, hmore⟩ := h
  by_cases hidle : BeginsIdly text
  · rcases hidle with ⟨after, rfl⟩ | rfl | ⟨after, rfl⟩
    · rfl
    · obtain ⟨rfl, -⟩ := List.append_eq_nil_iff.mp hmore
      rfl
    · cases rest with
      | nil => rfl
      | cons c cs =>
        obtain ⟨rfl, -⟩ := List.cons.inj hmore
        rfl
  · have hnone := anchor_eq_nil_iff.mpr hidle
    rw [hnone, List.nil_append] at hsplit ⊢
    by_cases hrest : rest = []
    · rw [hrest]
      rfl
    · rw [anchor_eq_nil_iff]
      rintro hrestIdle
      rcases hrestIdle with ⟨after, rfl⟩ | honly | ⟨after, rfl⟩
      · exact hidle (.inl ⟨after ++ more, by rw [← hsplit, ← hmore]; rfl⟩)
      · exact hdot honly
      · exact hidle (.inr (.inr ⟨after ++ more, by rw [← hsplit, ← hmore]; rfl⟩))

/-- The components of an anchor and a beginning of what follows it. -/
theorem componentsOf_anchor_append (h : rest <+: afterAnchor text) (hdot : rest ≠ ['.']) :
    componentsOf (anchor text ++ rest) =
      [anchor text].filter (· ≠ []) ++ (names rest).filter (· ≠ ['.']) := by
  have hanchor := anchor_append_of_prefix h hdot
  unfold componentsOf afterAnchor
  rw [hanchor, List.drop_left]

/-! ## Joining a name -/

/-- What stands before a name has the anchor of the directory. -/
theorem anchor_base (directory : Path) : anchor directory.base = anchor directory.text.toList := by
  unfold base
  split
  · rfl
  next h =>
  by_cases hdot : directory.text.toList = ['.']
  · rw [hdot]
    rfl
  · exact anchor_append (not_or.mp h).1 hdot

/-- What stands before a name has the components of the directory. -/
theorem componentsOf_base (directory : Path) :
    componentsOf directory.base = componentsOf directory.text.toList := by
  have hanchor := directory.anchor_base
  unfold base at hanchor ⊢
  split
  · rfl
  · next h =>
    rw [if_neg h] at hanchor
    rw [componentsOf, componentsOf, hanchor, afterAnchor_append hanchor, names_concat_slash]

/-- Joining a name adds it as a component. -/
theorem components_join (directory : Path) (hname : IsName name) :
    (directory.join ⟨name⟩).components = directory.components ++ [name] := by
  have hanchor := anchor_base_append directory hname
  have hafter := afterAnchor_append hanchor
  have hnames := names_append_isName directory.afterAnchor_base_cases hname
  have hjoined : componentsOf (directory.join ⟨name⟩).text.toList =
      componentsOf directory.base ++ [name.toList] := by
    rw [join_text hname, componentsOf, hanchor, hafter, hnames, List.filter_append,
      ← List.append_assoc]
    congr 1
    simp [hname.not_dot]
  rw [components, hjoined, componentsOf_base, List.map_append, List.map_singleton,
    String.ofList_toList]
  rfl

/-- Joining names one after the other adds them as components. -/
theorem components_foldl_join (directory : Path) {steps : List String}
    (hsteps : ∀ name ∈ steps, IsName name) :
    (steps.foldl (fun path name => path.join ⟨name⟩) directory).components =
      directory.components ++ steps := by
  induction steps generalizing directory with
  | nil => exact (List.append_nil _).symm
  | cons name steps ih =>
    obtain ⟨hname, hsteps⟩ := List.forall_mem_cons.mp hsteps
    rw [List.foldl_cons, ih _ hsteps, components_join directory hname, List.append_assoc]
    rfl

/-! ## Following joined names -/

/-- What stands before a further name has the joined name as its last one. -/
theorem names_base_join (directory : Path) (hname : IsName name) :
    names (directory.join ⟨name⟩).base = names directory.base ++ [name.toList] := by
  have hbase : (directory.join ⟨name⟩).base = directory.base ++ name.toList ++ ['/'] := by
    rw [base, join_text hname, if_neg]
    rintro (hempty | hlast)
    · exact hname.nonempty (List.append_eq_nil_iff.mp hempty).2
    · rw [List.getLast?_append, List.getLast?_eq_some_getLast hname.nonempty,
        Option.some_or] at hlast
      exact hname.no_slash (Option.some.inj hlast ▸ List.getLast_mem hname.nonempty)
  rw [hbase, names_concat_slash]
  exact names_append_isName directory.base_cases hname

/-- The names to follow to what joined names name: those to the directory, and the joined ones. -/
theorem steps_foldl_join (directory : Path) {steps : List String}
    (hsteps : ∀ name ∈ steps, IsName name) (hnonempty : steps ≠ []) :
    (steps.foldl (fun path name => path.join ⟨name⟩) directory).steps =
      (names directory.base).map String.ofList ++ steps := by
  induction steps generalizing directory with
  | nil => exact absurd rfl hnonempty
  | cons name steps ih =>
    obtain ⟨hname, hsteps⟩ := List.forall_mem_cons.mp hsteps
    by_cases hlast : steps = []
    · rw [hlast]
      exact steps_join hname
    · rw [List.foldl_cons, ih _ hsteps hlast, names_base_join directory hname, List.map_append,
        List.map_singleton, String.ofList_toList, List.append_assoc]
      rfl

/-- Joining names leaves a path absolute or relative. -/
theorem isAbsolute_foldl_join (directory : Path) {steps : List String}
    (hsteps : ∀ name ∈ steps, IsName name) :
    (steps.foldl (fun path name => path.join ⟨name⟩) directory).isAbsolute =
      directory.isAbsolute := by
  induction steps generalizing directory with
  | nil => rfl
  | cons name steps ih =>
    obtain ⟨hname, hsteps⟩ := List.forall_mem_cons.mp hsteps
    rw [List.foldl_cons, ih _ hsteps, Bool.eq_iff_iff, isAbsolute_iff, isAbsolute_iff,
      join_text hname, anchor_base_append directory hname, anchor_base]

/-! ## Directories that hold a path -/

/-- Without empty names and dots at its end, a text has the same components. -/
theorem componentsOf_trimNames (text : List Char) :
    componentsOf text = [anchor text].filter (· ≠ []) ++
      (names (trimNames (afterAnchor text).reverse).reverse).filter (· ≠ ['.']) := by
  obtain ⟨n, hn⟩ := names_trimNames (afterAnchor text).reverse
  rw [List.reverse_reverse] at hn
  rw [componentsOf, hn, List.filter_append, List.filter_replicate_of_neg (by simp),
    List.append_nil]

/-- The last name of a reversed text that does not begin idly is neither empty nor a dot. -/
theorem names_reverse_of_not_beginsIdly (hidle : ¬BeginsIdly text) (hnonempty : text ≠ []) :
    ∃ last, last ≠ ['.'] ∧
      names text.reverse = names ((text.dropWhile (· ≠ '/')).drop 1).reverse ++ [last] := by
  have hsplit : text.takeWhile (· ≠ '/') ++ text.dropWhile (· ≠ '/') = text :=
    List.takeWhile_append_dropWhile
  have hinside : '/' ∉ text.takeWhile (· ≠ '/') := fun hslash => by
    simpa using List.mem_takeWhile_imp hslash
  have hrest : text.dropWhile (· ≠ '/') = [] ∨
      ∃ outer, text.dropWhile (· ≠ '/') = '/' :: outer := by
    have hhead := List.head?_dropWhile_not (· ≠ '/') text
    cases hdropped : text.dropWhile (· ≠ '/') with
    | nil => exact .inl rfl
    | cons c outer =>
      rw [hdropped] at hhead
      exact .inr ⟨outer, by simpa using hhead⟩
  generalize text.takeWhile (· ≠ '/') = last at hsplit hinside
  generalize text.dropWhile (· ≠ '/') = behind at hsplit hrest ⊢
  have hlast : last ≠ [] := by
    rintro rfl
    rcases hrest with rfl | ⟨outer, rfl⟩
    · exact hnonempty hsplit.symm
    · exact hidle (.inl ⟨outer, hsplit.symm⟩)
  have hdot : last ≠ ['.'] := by
    rintro rfl
    rcases hrest with rfl | ⟨outer, rfl⟩
    · exact hidle (.inr (.inl hsplit.symm))
    · exact hidle (.inr (.inr ⟨outer, hsplit.symm⟩))
  have hname : names last.reverse = [last.reverse] := by
    rw [names, Text.splitAt_of_notMem (by simpa using hinside)]
    simp [hlast]
  refine ⟨last.reverse, fun h => hdot (by simpa using congrArg List.reverse h), ?_⟩
  rw [← hsplit, List.reverse_append]
  rcases hrest with rfl | ⟨outer, rfl⟩
  · rw [List.reverse_nil, List.nil_append, hname]
    rfl
  · rw [List.reverse_cons, List.append_assoc, List.singleton_append, names_append_slash, hname]
    rfl

/-- The directory that holds a path has all components but the last one. -/
theorem components_of_parent? (h : path.parent? = some outer) :
    ∃ last, path.components = outer.components ++ [last] := by
  have hreversed : path.namesReversed = trimNames (afterAnchor path.text.toList).reverse := rfl
  have hcomponents := componentsOf_trimNames path.text.toList
  have hidle := not_beginsIdly_trimNames (afterAnchor path.text.toList).reverse
  have hsuffix := trimNames_suffix (afterAnchor path.text.toList).reverse
  rw [← hreversed] at hcomponents hidle hsuffix
  rw [components]
  unfold parent? at h
  cases hnames : path.namesReversed with
  | nil =>
    -- A dot alone is held by the directory without a name.
    rw [hnames] at h hcomponents
    dsimp only at h
    split at h
    · next hdot =>
      obtain rfl := Option.some.inj h
      refine ⟨".", ?_⟩
      rw [hcomponents, hdot]
      rfl
    · exact nomatch h
  | cons first front =>
    obtain ⟨last, hlast, hlastNames⟩ :=
      names_reverse_of_not_beginsIdly hidle (hnames ▸ List.cons_ne_nil first front)
    rw [hnames] at h
    dsimp only at h
    rw [← hnames] at h
    obtain rfl := Option.some.inj h
    generalize path.namesReversed = reversed at *
    obtain ⟨n, hn⟩ := names_trimNames ((reversed.dropWhile (· ≠ '/')).drop 1)
    have hinside := trimNames_suffix ((reversed.dropWhile (· ≠ '/')).drop 1)
    have houterIdle := not_beginsIdly_trimNames ((reversed.dropWhile (· ≠ '/')).drop 1)
    generalize trimNames ((reversed.dropWhile (· ≠ '/')).drop 1) = kept at *
    have hprefix : kept.reverse <+: afterAnchor path.text.toList := by
      have hkept : kept <:+ (afterAnchor path.text.toList).reverse :=
        hinside.trans ((List.drop_suffix _ _).trans ((List.dropWhile_suffix _).trans hsuffix))
      simpa using List.reverse_prefix.mpr hkept
    have hdot : kept.reverse ≠ ['.'] := fun h =>
      houterIdle (.inr (.inl (List.reverse_eq_iff.mp h)))
    refine ⟨String.ofList last, ?_⟩
    rw [hcomponents, hlastNames, hn, components, String.toList_ofList,
      componentsOf_anchor_append hprefix hdot]
    simp [hlast]

/-- The components of a directory that holds a path begin those of the path, and there are more. -/
theorem Holds.exists_components_append (h : holder.Holds path) :
    ∃ more, more ≠ [] ∧ path.components = holder.components ++ more := by
  induction h with
  | single hparent =>
    obtain ⟨last, hlast⟩ := components_of_parent? hparent
    exact ⟨[last], List.cons_ne_nil _ _, hlast⟩
  | tail _ hparent ih =>
    obtain ⟨more, -, hmore⟩ := ih
    obtain ⟨last, hlast⟩ := components_of_parent? hparent
    refine ⟨last :: more, List.cons_ne_nil _ _, ?_⟩
    rw [hmore, hlast, List.append_assoc]
    rfl

end Path

namespace Tree

variable {tree : Tree} {here key : Key} {front steps : List String} {node : Node}

/-- A way over two rows of names goes over the place to which the first ones lead. -/
theorem exists_walk_of_append (h : tree.walk here (front ++ steps) = .ok (key, node)) :
    ∃ place found, tree.walk here front = .ok (place, found) ∧
      tree.walk place steps = .ok (key, node) := by
  induction front generalizing here with
  | nil =>
    cases hnode : tree.node? here with
    | none => cases steps <;> simp [walk, hnode] at h
    | some found => exact ⟨here, found, walk_nil_eq_ok_iff.mpr ⟨rfl, hnode⟩, h⟩
  | cons name front ih =>
    obtain ⟨hhere, hrest⟩ := walk_cons_eq_ok_iff.mp h
    obtain ⟨place, found, hplace, hsteps⟩ := ih hrest
    exact ⟨place, found, walk_cons_eq_ok_iff.mpr ⟨hhere, hplace⟩, hsteps⟩

/-- Names that are no dots lead below each other. -/
theorem key_eq_of_walk (hsteps : ∀ name ∈ steps, name ≠ "." ∧ name ≠ "..")
    (h : tree.walk here steps = .ok (key, node)) : key = here ++ steps := by
  induction steps generalizing here with
  | nil => rw [(walk_nil_eq_ok_iff.mp h).1, List.append_nil]
  | cons name steps ih =>
    obtain ⟨⟨hdot, hdots⟩, hsteps⟩ := List.forall_mem_cons.mp hsteps
    have hrest := (walk_cons_eq_ok_iff.mp h).2
    rw [follow, if_neg hdot, if_neg hdots] at hrest
    rw [ih hsteps hrest, List.append_assoc]
    rfl

end Tree

end Stubgen.Files
