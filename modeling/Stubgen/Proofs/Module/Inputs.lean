import Stubgen.Module.Building
import Stubgen.Proofs.Defs.CacheTransparency
import Mathlib.Logic.Relation

/-!
# The inputs of a module

The inputs of a module are the definition files that it lists and the override files that belong
to them, with everything that these include, whether or not it is there. Building the namespace
of a module reads nothing else: it has the same outcome in every file tree in which the inputs
read the same.
-/

namespace Stubgen

open Files (Key Path Tree)

namespace Defs

/-- The paths that a definition file includes. -/
def includedPaths (tree : Tree) (path : Path) : List Path :=
  match tree.readFile path with
  | .error _ => []
  | .ok (_, content) =>
    match readForms (Text.decodeLenient content) with
    | .error _ => []
    | .ok forms =>
      (Directive.ofTopLevels forms).filterMap fun entry =>
        match entry.2 with
        | .include target => some (path.directory.join ⟨target⟩)
        | .define _ | .fault _ => none

/-- The included paths are those of the include directives. -/
theorem mem_includedPaths {tree : Tree} {path : Path} {key : Key} {content : ByteArray}
    {forms : List TopLevel} (hread : tree.readFile path = .ok (key, content))
    (hforms : readForms (Text.decodeLenient content) = .ok forms) {line : Nat} {target : String}
    (hmem : (line, .include target) ∈ Directive.ofTopLevels forms) :
    path.directory.join ⟨target⟩ ∈ includedPaths tree path := by
  simp only [includedPaths, hread, hforms]
  exact List.mem_filterMap.mpr ⟨_, hmem, rfl⟩

end Defs

namespace OverrideReading

/-- The paths that an override file includes. -/
def includedPaths (tree : Tree) (path : Path) : List Path :=
  match tree.readFile path with
  | .error _ => []
  | .ok (_, content) =>
    (tasksOfText path (Text.decodeLenient content)).filterMap fun task =>
      match task with
      | .readFile included => some included
      | .addBlock _ => none

end OverrideReading

/-- From a path one comes to another by includes. -/
def LeadsTo (includes : Path → List Path) : Path → Path → Prop :=
  Relation.ReflTransGen fun path included => included ∈ includes path

/-- A path that is read to build the namespace of a module. -/
inductive ModuleSpec.IsInput (tree : Tree) (spec : ModuleSpec) (path : Path) : Prop
  | ofDefinitions {listed : Path} (hlisted : listed ∈ spec.definitions)
      (hleads : LeadsTo (Defs.includedPaths tree) listed path) : IsInput tree spec path
  | ofOverrides {listed : Path} (hlisted : listed ∈ spec.definitions)
      (hleads : LeadsTo (OverrideReading.includedPaths tree) (overridePath listed) path) :
      IsInput tree spec path

/-- Includes lead only to paths of a list that holds what its paths include. -/
theorem LeadsTo.mem_of_closed {includes : Path → List Path} {paths : List Path}
    (hclosed : ∀ path ∈ paths, ∀ included ∈ includes path, included ∈ paths) {path included : Path}
    (hleads : LeadsTo includes path included) (hpath : path ∈ paths) : included ∈ paths := by
  induction hleads with
  | refl => exact hpath
  | tail _ hincluded ih => exact hclosed _ ih _ hincluded

/-- The inputs of a module are among the paths of any list that holds the files of the module and
what its paths include. -/
theorem ModuleSpec.IsInput.mem_of_closed {tree : Tree} {spec : ModuleSpec} {paths : List Path}
    (hlisted : ∀ listed ∈ spec.definitions, listed ∈ paths ∧ overridePath listed ∈ paths)
    (hdefinitions : ∀ path ∈ paths, ∀ included ∈ Defs.includedPaths tree path, included ∈ paths)
    (hoverrides : ∀ path ∈ paths, ∀ included ∈ OverrideReading.includedPaths tree path,
      included ∈ paths) {path : Path} (h : spec.IsInput tree path) : path ∈ paths := by
  cases h with
  | ofDefinitions hmem hleads => exact hleads.mem_of_closed hdefinitions (hlisted _ hmem).1
  | ofOverrides hmem hleads => exact hleads.mem_of_closed hoverrides (hlisted _ hmem).2

/-- Two trees read the same where includes lead from a path. -/
def SameFrom (includes : Path → List Path) (tree other : Tree) (path : Path) : Prop :=
  ∀ included, LeadsTo includes path included → other.readFile included = tree.readFile included

variable {includes : Path → List Path} {tree other : Tree} {path : Path}

/-- A path itself reads the same. -/
theorem SameFrom.readFile_eq (h : SameFrom includes tree other path) :
    other.readFile path = tree.readFile path :=
  h path .refl

/-- What is included reads the same with what it includes. -/
theorem SameFrom.of_included (h : SameFrom includes tree other path) {included : Path}
    (hincluded : included ∈ includes path) : SameFrom includes tree other included :=
  fun _ hleads => h _ (.head hincluded hleads)

/-! ## Definition files -/

namespace Defs

/-- Loading depends on the tree only through what the path reads. -/
theorem Cache.load_congr (cache : Cache) (hsame : other.readFile path = tree.readFile path) :
    cache.load other path = cache.load tree path := by
  simp only [load, hsame]

/-- What a sound cache loads is what the file says. -/
theorem Cache.Sound.exists_readForms {cache next : Cache} (h : cache.Sound tree) {key : Key}
    {content : ByteArray} (hread : tree.readFile path = .ok (key, content))
    {forms : List TopLevel} (hload : cache.load tree path = (.ok forms, next)) :
    readForms (Text.decodeLenient content) = .ok forms := by
  cases hcached : cache.get? key with
  | some found =>
    rw [load_of_cached hread hcached] at hload
    obtain ⟨rfl, _⟩ : found = forms ∧ _ := by simpa using hload
    exact h.readForms_eq hread hcached
  | none =>
    cases hforms : readForms (Text.decodeLenient content) with
    | error fault =>
      rw [load_of_fault hread hcached hforms] at hload
      exact nomatch hload
    | ok found =>
      rw [load_of_forms hread hcached hforms] at hload
      obtain ⟨rfl, _⟩ : found = forms ∧ _ := by simpa using hload
      rfl

/-- Expanding a file with a sound cache reads only the file and what it includes. -/
theorem expandFile_congr (tree other : Tree) :
    (∀ active cache path, cache.Sound tree → SameFrom (includedPaths tree) tree other path →
      expandFile other active cache path = expandFile tree active cache path) ∧
    ∀ active path cache directives, cache.Sound tree →
      (∀ line target, (line, .include target) ∈ directives →
        SameFrom (includedPaths tree) tree other (path.directory.join ⟨target⟩)) →
      expandDirectives other active path cache directives =
        expandDirectives tree active path cache directives := by
  -- The induction follows the run in the first tree. Soundness of the cache is what makes the
  -- directives that are followed those of the file.
  refine expandFile.mutual_induct tree
    (fun active cache path => cache.Sound tree →
      SameFrom (includedPaths tree) tree other path →
      expandFile other active cache path = expandFile tree active cache path)
    (fun active path cache directives => cache.Sound tree →
      (∀ line target, (line, .include target) ∈ directives →
        SameFrom (includedPaths tree) tree other (path.directory.join ⟨target⟩)) →
      expandDirectives other active path cache directives =
        expandDirectives tree active path cache directives)
    ?unreadable ?active ?refused ?loaded ?nil ?fault ?define ?failed ?included
  case unreadable =>
    intro active cache path e hread h hsame
    rw [expandFile_of_unreadable hread, expandFile_of_unreadable (hsame.readFile_eq.trans hread)]
  case active =>
    intro active cache path key content hread hkey h hsame
    rw [expandFile_of_active hread hkey,
      expandFile_of_active (hsame.readFile_eq.trans hread) hkey]
  case refused =>
    intro active cache path key content hread hkey e next hload h hsame
    have hload' := (cache.load_congr hsame.readFile_eq).trans hload
    rw [expandFile_of_fault hread hkey hload,
      expandFile_of_fault (hsame.readFile_eq.trans hread) hkey hload']
  case loaded =>
    intro active cache path key content hread hkey forms next hload ih h hsame
    have hload' := (cache.load_congr hsame.readFile_eq).trans hload
    have hnext : next.Sound tree := by
      have := h.load path
      rwa [hload] at this
    rw [expandFile_of_forms hread hkey hload,
      expandFile_of_forms (hsame.readFile_eq.trans hread) hkey hload']
    refine ih hnext fun line target hmem => hsame.of_included ?_
    exact mem_includedPaths hread (h.exists_readForms hread hload) hmem
  case nil =>
    intro active path cache h hsame
    simp only [expandDirectives]
  case fault =>
    intro active path cache line cause rest h hsame
    simp only [expandDirectives]
  case define =>
    intro active path cache line record rest ih h hsame
    simp only [expandDirectives]
    rw [ih h fun line' target hmem => hsame line' target (List.mem_cons_of_mem _ hmem)]
  case failed =>
    intro active path cache line target rest inner e hresult ih h hsame
    have hinner := ih h (hsame line target List.mem_cons_self)
    have hresult' := (congrArg Expansion.result hinner).trans hresult
    rw [expandDirectives_of_failed hresult, expandDirectives_of_failed hresult', hinner]
  case included =>
    intro active path cache line target rest inner records hresult ihInner ihRest h hsame
    have hinner := ihInner h (hsame line target List.mem_cons_self)
    have hsound : inner.cache.Sound tree :=
      ((expandFile_alike tree).1 active cache _ h cache h).sound_left
    have hrest := ihRest hsound fun line' target' hmem =>
      hsame line' target' (List.mem_cons_of_mem _ hmem)
    have hresult' := (congrArg Expansion.result hinner).trans hresult
    rw [expandDirectives_of_included hresult, expandDirectives_of_included hresult', hinner]
    exact congrArg (inner.followedBy records) hrest

end Defs

/-! ## Override files -/

namespace OverrideReading

/-- The included paths are those that the text of the file leaves to be read. -/
theorem mem_includedPaths {key : Key} {content : ByteArray} {included : Path}
    (hread : tree.readFile path = .ok (key, content))
    (hmem : .readFile included ∈ tasksOfText path (Text.decodeLenient content)) :
    included ∈ includedPaths tree path := by
  simp only [includedPaths, hread]
  exact List.mem_filterMap.mpr ⟨_, hmem, rfl⟩

/-- Reading override files reads only the files and what they include. -/
theorem run_congr (tree other : Tree) (reading : OverrideReading) (tasks : List OverrideTask)
    (hsame : ∀ path, .readFile path ∈ tasks → SameFrom (includedPaths tree) tree other path) :
    reading.run other tasks = reading.run tree tasks := by
  revert hsame
  refine run.induct tree
    (fun reading tasks =>
      (∀ path, .readFile path ∈ tasks → SameFrom (includedPaths tree) tree other path) →
        reading.run other tasks = reading.run tree tasks)
    ?nil ?addBlock ?unreadable ?visited ?new reading tasks
  case nil =>
    intro reading _
    simp only [run]
  case addBlock =>
    intro reading block rest ih hsame
    simp only [run]
    exact ih fun path hmem => hsame path (List.mem_cons_of_mem _ hmem)
  case unreadable =>
    intro reading path rest e hread hsame
    have hread' := (hsame path List.mem_cons_self).readFile_eq.trans hread
    rw [run_of_unreadable hread, run_of_unreadable hread']
  case visited =>
    intro reading path rest key content hread hkey ih hsame
    have hread' := (hsame path List.mem_cons_self).readFile_eq.trans hread
    rw [run_of_visited hread hkey, run_of_visited hread' hkey]
    exact ih fun path hmem => hsame path (List.mem_cons_of_mem _ hmem)
  case new =>
    intro reading path rest key content hread hkey ih hsame
    have hpath := hsame path List.mem_cons_self
    rw [run_of_new hread hkey, run_of_new (hpath.readFile_eq.trans hread) hkey]
    refine ih fun included hmem => ?_
    rcases List.mem_append.mp hmem with hincluded | hrest
    · exact hpath.of_included (mem_includedPaths hread hincluded)
    · exact hsame included (List.mem_cons_of_mem _ hrest)

end OverrideReading

/-! ## The namespace of a module -/

namespace Building

open Defs (Cache)

/-- Two buildings end alike: with the same namespace or the same error, with the same events, and
both with sound caches. -/
structure Alike (tree : Tree) (a b : Building) : Prop where
  result : a.result = b.result
  events : a.events = b.events
  sound_left : a.cache.Sound tree
  sound_right : b.cache.Sound tree

variable {style : DocStyle} {ns : Namespace} {cache cache' : Cache}

/-- Buildings that end alike do so too if they go on alike. -/
theorem Alike.andThen {a b : Building} (h : a.Alike tree b)
    {next next' : Namespace → Cache → Building}
    (hnext : ∀ ns cache cache', cache.Sound tree → cache'.Sound tree →
      (next ns cache).Alike tree (next' ns cache')) :
    (a.andThen next).Alike tree (b.andThen next') := by
  unfold Building.andThen
  rw [h.result]
  cases b.result with
  | error e =>
    exact h
  | ok ns =>
    have hrest := hnext ns a.cache b.cache h.sound_left h.sound_right
    exact ⟨hrest.result, congrArg₂ (· ++ ·) h.events hrest.events, hrest.sound_left,
      hrest.sound_right⟩

/-- Whether a path leads to a file depends only on what it reads. -/
theorem isFile_congr (hsame : other.readFile path = tree.readFile path) :
    other.isFile path = tree.isFile path := by
  rw [Tree.isFile, Tree.isFile, hsame]

/-- The definitions of a file are taken up alike where it reads the same. -/
theorem addDefinitions_alike (h : cache.Sound tree) (h' : cache'.Sound tree)
    (hsame : SameFrom (Defs.includedPaths tree) tree other path) :
    (addDefinitions other style path ns cache).Alike tree
      (addDefinitions tree style path ns cache') := by
  have hexpand : (Defs.expand other cache path).Alike tree (Defs.expand tree cache' path) := by
    rw [Defs.expand, (Defs.expandFile_congr tree other).1 [] cache path h hsame]
    exact (Defs.expandFile_alike tree).1 [] cache path h cache' h'
  unfold addDefinitions
  rw [isFile_congr hsame.readFile_eq]
  split
  · simp only [hexpand.result]
    cases (Defs.expand tree cache' path).result with
    | error e => exact ⟨rfl, hexpand.events, hexpand.sound_left, hexpand.sound_right⟩
    | ok records =>
      exact ⟨rfl, congrArg (· ++ _) hexpand.events, hexpand.sound_left, hexpand.sound_right⟩
  · exact ⟨rfl, rfl, h, h'⟩

/-- An override file is applied alike where it reads the same. -/
theorem addOverrides_alike (h : cache.Sound tree) (h' : cache'.Sound tree)
    (hsame : SameFrom (OverrideReading.includedPaths tree) tree other (overridePath path)) :
    (addOverrides other path ns cache).Alike tree (addOverrides tree path ns cache') := by
  have hread : readOverrides other (overridePath path) = readOverrides tree (overridePath path) :=
    OverrideReading.run_congr tree other .start _ (by simpa using hsame)
  unfold addOverrides
  simp only [isFile_congr hsame.readFile_eq, hread]
  split
  · split
    · exact ⟨rfl, rfl, h, h'⟩
    · exact ⟨rfl, rfl, h, h'⟩
  · exact ⟨rfl, rfl, h, h'⟩

/-- Files are taken up alike where they and the override files that belong to them read the
same. -/
theorem addFiles_alike {paths : List Path} (h : cache.Sound tree) (h' : cache'.Sound tree)
    (hsame : ∀ path ∈ paths, SameFrom (Defs.includedPaths tree) tree other path ∧
      SameFrom (OverrideReading.includedPaths tree) tree other (overridePath path)) :
    (addFiles other style ns cache paths).Alike tree (addFiles tree style ns cache' paths) := by
  induction paths generalizing ns cache cache' with
  | nil => exact ⟨rfl, rfl, h, h'⟩
  | cons path rest ih =>
    obtain ⟨hdefinitions, hoverrides⟩ := hsame path List.mem_cons_self
    have hpath : ((addDefinitions other style path ns cache).andThen
        (addOverrides other path)).Alike tree
        ((addDefinitions tree style path ns cache').andThen (addOverrides tree path)) :=
      (addDefinitions_alike h h' hdefinitions).andThen
        fun _ _ _ h h' => addOverrides_alike h h' hoverrides
    exact hpath.andThen fun _ _ _ h h' =>
      ih h h' fun path hmem => hsame path (List.mem_cons_of_mem _ hmem)

end Building

/-- Whatever a sound cache holds, a module is built alike in every tree in which its inputs read
the same. -/
theorem ModuleSpec.build_alike {spec : ModuleSpec} {cache cache' : Defs.Cache}
    (h : cache.Sound tree) (h' : cache'.Sound tree)
    (hsame : ∀ path, spec.IsInput tree path → other.readFile path = tree.readFile path)
    (style : DocStyle) :
    (spec.build other style cache).Alike tree (spec.build tree style cache') :=
  Building.addFiles_alike h h' fun _ hlisted =>
    ⟨fun path hleads => hsame path (.ofDefinitions hlisted hleads),
      fun path hleads => hsame path (.ofOverrides hlisted hleads)⟩

end Stubgen
