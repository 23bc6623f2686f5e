import Stubgen.Proofs.Files.Components
import Stubgen.Proofs.Text.Joining
import Stubgen.Stub.Location

/-!
# Stubs of different modules

The path of a stub ends with the names of its module, the last of them with an ending. No name of a
module holds a dot, and so the ending tells where the path stops: stubs of different modules in one
directory have different paths, and neither of them is on the way to the other. In a file tree, they
are found at different keys.
-/

namespace Stubgen

open Files (IsName Path Tree)

namespace Stub

/-- The names in a module name, which stand between the dots. -/
def moduleNames (module : String) : List String :=
  (Text.splitAt '.' module.toList).map String.ofList

/-- A module name whose names can name directories and files. -/
def IsModuleName (module : String) : Prop :=
  ∀ name ∈ moduleNames module, name.toList ≠ [] ∧ '/' ∉ name.toList

instance : DecidablePred IsModuleName :=
  fun module => inferInstanceAs (Decidable (∀ name ∈ moduleNames module, _))

variable {module first second name last : String} {front : List String}

/-! ## Names of modules -/

/-- There is a last name. -/
theorem exists_moduleNames_concat (module : String) :
    ∃ front last, moduleNames module = front ++ [last] := by
  rcases List.eq_nil_or_concat (moduleNames module) with hnil | ⟨front, last, hconcat⟩
  · exact absurd (List.map_eq_nil_iff.mp hnil) (Text.splitAt_ne_nil '.' module.toList)
  · exact ⟨front, last, hconcat.trans List.concat_eq_append⟩

/-- No name holds a dot. -/
theorem no_dot_of_mem_moduleNames (h : name ∈ moduleNames module) : '.' ∉ name.toList := by
  obtain ⟨piece, hpiece, rfl⟩ := List.mem_map.mp h
  rw [String.toList_ofList]
  exact Text.notMem_of_mem_splitAt hpiece

/-- A module is known by its names. -/
theorem moduleNames_injective : Function.Injective moduleNames := by
  intro first second h
  have hpieces := List.map_injective_iff.mpr (fun _ _ => String.ofList_injective) h
  exact String.toList_inj.mp (Text.splitAt_injective '.' hpieces)

/-- The names of a module name can name directories. -/
theorem IsModuleName.isName (h : IsModuleName module) (hname : name ∈ moduleNames module) :
    IsName name where
  nonempty := (h name hname).1
  no_slash := (h name hname).2
  not_dot hdot := no_dot_of_mem_moduleNames hname (hdot ▸ List.mem_singleton_self '.')

/-- With the ending, a name can name a file. -/
theorem isName_append_ending (h : IsName name) : IsName (name ++ ".pi") where
  nonempty := by simp [String.toList_append]
  no_slash := by simp [String.toList_append, h.no_slash]
  not_dot := by
    intro hdot
    have hlength := congrArg List.length hdot
    simp [String.toList_append] at hlength

/-! ## Paths of stubs -/

/-- The path of a stub joins the names of the module to the directory, the last one with the
ending. -/
theorem location_eq (directory : Path) (hnames : moduleNames module = front ++ [last]) :
    location directory module =
      (front ++ [last ++ ".pi"]).foldl (fun path name => path.join ⟨name⟩) directory := by
  unfold location
  change ((moduleNames module).dropLast.foldl _ directory).join
    ⟨(moduleNames module).getLast?.getD module ++ ".pi"⟩ = _
  rw [hnames, List.dropLast_concat, List.getLast?_concat, List.foldl_append]
  rfl

/-- The names that the path of a stub joins to the directory can name directories and files. -/
theorem IsModuleName.isName_step (h : IsModuleName module)
    (hnames : moduleNames module = front ++ [last]) :
    ∀ name ∈ front ++ [last ++ ".pi"], IsName name := by
  intro name hname
  rcases List.mem_append.mp hname with hfront | hlast
  · exact h.isName (hnames ▸ List.mem_append_left [last] hfront)
  · rw [List.mem_singleton.mp hlast]
    exact isName_append_ending (h.isName (hnames ▸ List.mem_concat_self))

/-- Only the last of the names that are joined holds a dot, so none of these rows of names begins
another one. -/
theorem eq_of_beginning {otherFront : List String} {otherLast : String}
    (hfirst : moduleNames first = front ++ [last])
    (hsecond : moduleNames second = otherFront ++ [otherLast])
    (hbegins : front ++ [last ++ ".pi"] <+: otherFront ++ [otherLast ++ ".pi"]) :
    first = second := by
  rcases List.prefix_concat_iff.mp hbegins with heq | hfront
  · obtain ⟨rfl, hends⟩ := List.append_inj' heq rfl
    have hlast : last = otherLast := by simpa using hends
    exact moduleNames_injective (by rw [hfirst, hsecond, hlast])
  · have hmem : last ++ ".pi" ∈ moduleNames second := by
      rw [hsecond]
      exact List.mem_append_left [otherLast] (hfront.subset List.mem_concat_self)
    exact absurd (by simp [String.toList_append]) (no_dot_of_mem_moduleNames hmem)

/-- The names that the path of a stub joins to the directory are followed as names. -/
theorem IsModuleName.follows_step (h : IsModuleName module)
    (hnames : moduleNames module = front ++ [last]) :
    ∀ name ∈ front ++ [last ++ ".pi"], name ≠ "." ∧ name ≠ ".." := by
  intro name hname
  refine ⟨fun hdot => (h.isName_step hnames name hname).not_dot (by rw [hdot]; rfl), ?_⟩
  rcases List.mem_append.mp hname with hfront | hlast
  · have hno := no_dot_of_mem_moduleNames (hnames ▸ List.mem_append_left [last] hfront)
    rintro rfl
    exact hno (by decide)
  · intro hdots
    have hmem : 'p' ∈ name.toList := by
      rw [List.mem_singleton.mp hlast, String.toList_append]
      exact List.mem_append_right _ (by decide)
    rw [hdots] at hmem
    exact absurd hmem (by decide)

/-- In a file tree, what the path of a stub leads to is found under the names of the module, from
where the directory is. -/
theorem IsModuleName.key_eq {tree : Tree} {key : Files.Key} {node : Files.Node}
    (h : IsModuleName module) (hnames : moduleNames module = front ++ [last]) {directory : Path}
    (hlocate : tree.locate (location directory module) = .ok (key, node)) :
    ∃ place found, tree.walk (tree.origin directory)
        ((Path.names directory.base).map String.ofList) = .ok (place, found) ∧
      key = place ++ (front ++ [last ++ ".pi"]) := by
  have hwalk := (Tree.walk_of_locate hlocate).2.2
  rw [location_eq directory hnames] at hwalk
  rw [Tree.origin, Path.isAbsolute_foldl_join directory (h.isName_step hnames),
    Path.steps_foldl_join directory (h.isName_step hnames)
    (List.concat_ne_nil _ _)] at hwalk
  obtain ⟨place, found, hplace, hrest⟩ := Tree.exists_walk_of_append hwalk
  exact ⟨place, found, hplace, Tree.key_eq_of_walk (h.follows_step hnames) hrest⟩

/-- The path of a stub has the components of the directory and as many more as the module has names,
the last one with the ending. Stubs of different modules have different paths, and the path of a
stub never is a directory on the way to a stub. Two stubs of one file tree are at different keys,
neither of them below the other. -/
theorem stubs_of_modules_apart (directory : Path) (hfirst : IsModuleName first)
    (hsecond : IsModuleName second) :
    (∃ front last, moduleNames first = front ++ [last] ∧
      (location directory first).components = directory.components ++ front ++ [last ++ ".pi"]) ∧
    (first ≠ second →
      (location directory first).components ≠ (location directory second).components) ∧
    (¬∃ more, more ≠ [] ∧
      (location directory second).components = (location directory first).components ++ more) ∧
    ¬(location directory first).Holds (location directory second) ∧
    ∀ (tree : Tree) (key other : Files.Key) (node otherNode : Files.Node),
      tree.locate (location directory first) = .ok (key, node) →
      tree.locate (location directory second) = .ok (other, otherNode) →
      key <+: other → first = second := by
  obtain ⟨front, last, hnames⟩ := exists_moduleNames_concat first
  obtain ⟨otherFront, otherLast, hotherNames⟩ := exists_moduleNames_concat second
  have hcomponents : (location directory first).components =
      directory.components ++ (front ++ [last ++ ".pi"]) := by
    rw [location_eq directory hnames, Path.components_foldl_join _ (hfirst.isName_step hnames)]
  have hotherComponents : (location directory second).components =
      directory.components ++ (otherFront ++ [otherLast ++ ".pi"]) := by
    rw [location_eq directory hotherNames,
      Path.components_foldl_join _ (hsecond.isName_step hotherNames)]
  have hsame (more : List String) (h : (location directory second).components =
      (location directory first).components ++ more) : first = second := by
    refine eq_of_beginning hnames hotherNames ⟨more, ?_⟩
    rw [hcomponents, hotherComponents, List.append_assoc] at h
    exact (List.append_cancel_left h).symm
  have hnone : ¬∃ more, more ≠ [] ∧ (location directory second).components =
      (location directory first).components ++ more := by
    rintro ⟨more, hmore, hlonger⟩
    obtain rfl := hsame more hlonger
    exact hmore (List.self_eq_append_right.mp hlonger)
  refine ⟨⟨front, last, hnames, by rw [hcomponents, List.append_assoc]⟩, fun hne heq => hne ?_,
    hnone, fun hholds => hnone hholds.exists_components_append, ?_⟩
  · exact hsame [] (by rw [List.append_nil, heq])
  · intro tree key other node otherNode hlocate hotherLocate hbegins
    obtain ⟨place, found, hplace, rfl⟩ := hfirst.key_eq hnames hlocate
    obtain ⟨otherPlace, otherFound, hotherPlace, rfl⟩ := hsecond.key_eq hotherNames hotherLocate
    rw [hplace] at hotherPlace
    obtain ⟨rfl, -⟩ := Prod.mk.inj (Except.ok.inj hotherPlace)
    exact eq_of_beginning hnames hotherNames ((List.prefix_append_right_inj place).mp hbegins)

/-- A module whose name goes on behind the name of another one, in a directory that is spelled with
a dot and two slashes. -/
theorem stubs_of_modules_apart_of_longer_name :
    IsModuleName "gtk" ∧ IsModuleName "gtk.pi" ∧
      (location ⟨"./out//"⟩ "gtk").components = [".", "out", "gtk.pi"] ∧
      (location ⟨"./out//"⟩ "gtk.pi").components = [".", "out", "gtk", "pi.pi"] ∧
      ¬(location ⟨"./out//"⟩ "gtk").Holds (location ⟨"./out//"⟩ "gtk.pi") := by
  have hfirst : IsModuleName "gtk" := by decide +kernel
  have hsecond : IsModuleName "gtk.pi" := by decide +kernel
  obtain ⟨-, -, -, hholds, -⟩ := stubs_of_modules_apart ⟨"./out//"⟩ hfirst hsecond
  exact ⟨hfirst, hsecond, by decide +kernel, by decide +kernel, hholds⟩

end Stub

end Stubgen
