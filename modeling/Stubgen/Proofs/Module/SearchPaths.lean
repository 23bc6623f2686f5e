import Mathlib.Data.List.Basic
import Mathlib.Logic.Function.Iterate
import Stubgen.Proofs.Module.Isolation
import Stubgen.Run

/-!
# Where the interpreter looks for modules

Before a live module is examined, the search paths that the interpreter does not know yet are put in
front of the directories that it knows. They are gone through from the last to the first, and one
that has been added counts as known from then on. So the place of a search path that is listed
several times is that of its last occurrence, and all further modules of a run find nothing to add.
-/

namespace Stubgen

namespace Introspector

/-- The last occurrence of one element of a list stands before the last occurrence of another. -/
def LastBefore (list : List String) (first second : String) : Prop :=
  ∃ front rest, list = front ++ first :: rest ∧ first ∉ rest ∧ second ∈ rest

/-- The search paths that are missing among the known directories, each once, in the order of their
last occurrences. -/
structure Adds (searchPaths known added : List String) : Prop where
  nodup : added.Nodup
  mem_iff : ∀ directory, directory ∈ added ↔ directory ∈ searchPaths ∧ directory ∉ known
  ordered : added.Pairwise (LastBefore searchPaths)

variable {searchPaths rest known added other list : List String} {directory first second : String}

/-! ## The order of last occurrences -/

/-- What is put before a list does not change the order of the last occurrences in it. -/
theorem LastBefore.cons (h : LastBefore list first second) (head : String) :
    LastBefore (head :: list) first second := by
  obtain ⟨front, rest, rfl, hlast, hsecond⟩ := h
  exact ⟨head :: front, rest, rfl, hlast, hsecond⟩

/-- Two last occurrences stand in one order only. -/
theorem LastBefore.asymm (h : LastBefore list first second) : ¬LastBefore list second first := by
  obtain ⟨front, rest, rfl, hlast, hsecond⟩ := h
  rintro ⟨otherFront, otherRest, hsplit, hotherLast, hfirst⟩
  rcases List.append_eq_append_iff.mp hsplit with ⟨between, rfl, htail⟩ | ⟨between, rfl, htail⟩
  · rcases List.cons_eq_append_iff.mp htail with ⟨rfl, hsame⟩ | ⟨more, rfl, rfl⟩
    · obtain ⟨rfl, rfl⟩ := List.cons.inj hsame
      exact hlast hfirst
    · exact hlast (List.mem_append_right more (List.mem_cons_of_mem second hfirst))
  · rcases List.cons_eq_append_iff.mp htail with ⟨rfl, hsame⟩ | ⟨more, rfl, rfl⟩
    · obtain ⟨rfl, rfl⟩ := List.cons.inj hsame
      exact hlast hfirst
    · exact hotherLast (List.mem_append_right more (List.mem_cons_of_mem first hsecond))

/-- There is only one way to add the search paths that are missing. -/
theorem Adds.unique (h : Adds searchPaths known added) (hother : Adds searchPaths known other) :
    added = other := by
  have hperm : added.Perm other := by
    refine (List.perm_ext_iff_of_nodup h.nodup hother.nodup).mpr fun directory => ?_
    rw [h.mem_iff, hother.mem_iff]
  exact hperm.eq_of_pairwise (fun _ _ _ _ hbefore hafter => absurd hafter hbefore.asymm) h.ordered
    hother.ordered

/-! ## Adding search paths -/

/-- The first of the search paths is looked at when the others have been added. -/
theorem extendPath_cons (directory : String) (rest known : List String) :
    extendPath (directory :: rest) known =
      if directory ∈ extendPath rest known then extendPath rest known
      else directory :: extendPath rest known :=
  rfl

/-- Of one more search path in front, nothing has to be added if it is known or added already. -/
theorem Adds.cons_of_mem (h : Adds rest known added) (hmem : directory ∈ added ++ known) :
    Adds (directory :: rest) known added where
  nodup := h.nodup
  mem_iff path := by
    rw [h.mem_iff, List.mem_cons]
    refine ⟨fun ⟨hpath, hnew⟩ => ⟨.inr hpath, hnew⟩, ?_⟩
    rintro ⟨rfl | hpath, hnew⟩
    · exact (h.mem_iff path).mp ((List.mem_append.mp hmem).resolve_right hnew)
    · exact ⟨hpath, hnew⟩
  ordered := h.ordered.imp fun hbefore => hbefore.cons directory

/-- Otherwise this search path is added in front of the others. -/
theorem Adds.cons_of_notMem (h : Adds rest known added) (hmem : directory ∉ added ++ known) :
    Adds (directory :: rest) known (directory :: added) := by
  obtain ⟨hadded, hknown⟩ := not_or.mp (List.mem_append.not.mp hmem)
  -- The search path does not occur among the others, for it would have been added with them.
  have hrest : directory ∉ rest := fun hrest => hadded ((h.mem_iff directory).mpr ⟨hrest, hknown⟩)
  refine ⟨List.nodup_cons.mpr ⟨hadded, h.nodup⟩, fun path => ?_, List.pairwise_cons.mpr ⟨?_, ?_⟩⟩
  · rw [List.mem_cons, List.mem_cons, h.mem_iff]
    constructor
    · rintro (rfl | ⟨hpath, hnew⟩)
      · exact ⟨.inl rfl, hknown⟩
      · exact ⟨.inr hpath, hnew⟩
    · rintro ⟨rfl | hpath, hnew⟩
      · exact .inl rfl
      · exact .inr ⟨hpath, hnew⟩
  · intro path hpath
    exact ⟨[], rest, rfl, hrest, ((h.mem_iff path).mp hpath).1⟩
  · exact h.ordered.imp fun hbefore => hbefore.cons directory

/-- The search paths that are missing are added in front of the known directories. -/
theorem exists_adds_extendPath (searchPaths known : List String) :
    ∃ added, Adds searchPaths known added ∧ added ++ known = extendPath searchPaths known := by
  induction searchPaths with
  | nil => exact ⟨[], ⟨List.nodup_nil, by simp, .nil⟩, rfl⟩
  | cons directory rest ih =>
    obtain ⟨added, hadds, hextended⟩ := ih
    rw [extendPath_cons, ← hextended]
    split
    · next hmem => exact ⟨added, hadds.cons_of_mem hmem, rfl⟩
    · next hmem => exact ⟨directory :: added, hadds.cons_of_notMem hmem, rfl⟩

/-- Afterwards all search paths are known. -/
theorem subset_extendPath (searchPaths known : List String) :
    searchPaths ⊆ extendPath searchPaths known := by
  obtain ⟨added, hadds, hextended⟩ := exists_adds_extendPath searchPaths known
  rw [← hextended]
  intro directory hdirectory
  by_cases hknown : directory ∈ known
  · exact List.mem_append_right added hknown
  · exact List.mem_append_left known ((hadds.mem_iff directory).mpr ⟨hdirectory, hknown⟩)

/-- Where all search paths are known, nothing is added. -/
theorem extendPath_of_subset (h : searchPaths ⊆ known) : extendPath searchPaths known = known := by
  induction searchPaths with
  | nil => rfl
  | cons directory rest ih =>
    obtain ⟨hdirectory, hrest⟩ := List.cons_subset.mp h
    rw [extendPath_cons, ih hrest, if_pos hdirectory]

/-- Adding the search paths again and again is adding them once. -/
theorem iterate_extendPath (searchPaths known : List String) (n : Nat) :
    (extendPath searchPaths)^[n + 1] known = extendPath searchPaths known := by
  rw [Function.iterate_succ_apply]
  exact Function.iterate_fixed (extendPath_of_subset (subset_extendPath searchPaths known)) n

end Introspector

/-! ## The modules of a run -/

namespace Session

open Files (Path)

variable {settings : Settings} {introspector : Introspector}

/-- The number of modules of a run whose live modules are examined: all but those whose namespaces
cannot be built. -/
def examined (settings : Settings) (session : Session) (directory : Path) :
    List ModuleSpec → Nat
  | [] => 0
  | spec :: rest =>
    (if (session.build settings spec).1.isOk then 1 else 0) +
      (session.generateReported settings spec directory).2.examined settings directory rest

/-- A module adds the search paths if its namespace can be built. -/
theorem modulePath_generateReported (hlive : settings.introspector? = some introspector)
    (session : Session) (spec : ModuleSpec) (directory : Path) :
    (session.generateReported settings spec directory).2.modulePath =
      if (session.build settings spec).1.isOk then
        Introspector.extendPath introspector.searchPaths session.modulePath
      else session.modulePath := by
  rw [generateReported_eq, view_conclude Session.modulePath (fun _ _ => rfl) (fun _ _ => rfl)]
  have hbuilt : (session.build settings spec).2.modulePath = session.modulePath := rfl
  unfold prepare
  rw [← hbuilt]
  generalize session.build settings spec = built
  obtain ⟨_ | ns, built⟩ := built
  · rfl
  · dsimp only
    rw [augment, hlive]
    rfl

/-- A run adds the search paths once for each module that is examined. -/
theorem modulePath_generateAll (hlive : settings.introspector? = some introspector)
    (session : Session) (directory : Path) (specs : List ModuleSpec) :
    (session.generateAll settings directory specs).2.modulePath =
      (Introspector.extendPath introspector.searchPaths)^[session.examined settings directory specs]
        session.modulePath := by
  induction specs generalizing session with
  | nil => rfl
  | cons spec rest ih =>
    simp only [generateAll, examined]
    rw [ih, modulePath_generateReported hlive]
    split
    · rw [Nat.add_comm 1, Function.iterate_succ_apply]
    · rw [Nat.zero_add]

end Session

/-- The search paths that are missing are put in front of the known directories, each once and in
the order of their last occurrences, and nothing else changes. Then all search paths are known, and
adding them any number of times more makes no difference, as all modules of a run do that are
examined. -/
theorem Introspector.extendPath_adds_missing (introspector : Introspector) (known : List String) :
    let searchPaths := introspector.searchPaths
    (∀ extended, extendPath searchPaths known = extended ↔
      ∃ added, Adds searchPaths known added ∧ added ++ known = extended) ∧
    searchPaths ⊆ extendPath searchPaths known ∧
    (∀ n, (extendPath searchPaths)^[n + 1] known = extendPath searchPaths known) ∧
    ∀ (style : DocStyle) (session : Session) (directory : Files.Path) (specs : List ModuleSpec),
      let settings : Settings := ⟨style, some introspector⟩
      (session.generateAll settings directory specs).2.modulePath =
        (extendPath searchPaths)^[session.examined settings directory specs]
          session.modulePath := by
  intro searchPaths
  refine ⟨fun extended => ?_, subset_extendPath searchPaths known,
    iterate_extendPath searchPaths known, fun style session directory specs => ?_⟩
  · obtain ⟨added, hadds, hextended⟩ := exists_adds_extendPath searchPaths known
    constructor
    · rintro rfl
      exact ⟨added, hadds, hextended⟩
    · rintro ⟨other, hother, rfl⟩
      rw [← hextended, hadds.unique hother]
  · exact Session.modulePath_generateAll rfl session directory specs

/-- A search path that is listed twice stands where it is listed last. -/
example :
    Introspector.extendPath ["lib", "gen", "lib", "src"] ["src", "usr", "usr"] =
      ["gen", "lib", "src", "usr", "usr"] := by
  decide

end Stubgen
