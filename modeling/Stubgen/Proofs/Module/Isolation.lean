import Stubgen.Module.Generation
import Stubgen.Proofs.Module.Inputs

/-!
# Isolation of modules

The modules of a run share a cache of definition files, and each of them may end in an error at
any point. As long as the stubs that are written leave the inputs alone, this does not matter:
every module is reported, and what is made of it before its stub is written is what a run of its
own would make of it.
-/

namespace Stubgen

open Files (Path Tree)

namespace Session

/-- What a session makes of a module before anything is written: its namespace with the constants
of the live module, or the first error. -/
def prepare (settings : Settings) (session : Session) (spec : ModuleSpec) :
    Except Error Namespace × Session :=
  match session.build settings spec with
  | (.error e, session) => (.error e, session)
  | (.ok ns, session) => session.augment settings spec.module ns

/-- The text of the stub of a module, unless there is an error before. -/
def stubText (settings : Settings) (session : Session) (spec : ModuleSpec) : Except Error String :=
  (session.prepare settings spec).1.map Stub.render

/-- Writes the stub of a module that has been prepared and reports what came of it. -/
def conclude (session : Session) (spec : ModuleSpec) (directory : Path) :
    Except Error Namespace → Report × Session
  | .error e => (.failed spec.module e.message, session.say [.failedModule e spec.module])
  | .ok ns =>
    match session.emit spec.module directory ns with
    | (.ok report, session) => (report, session)
    | (.error e, session) =>
      (.failed spec.module e.message, session.say [.failedModule e spec.module])

variable {settings : Settings} {session : Session} {spec : ModuleSpec} {directory : Path}

/-- A module is reported after it has been prepared. -/
theorem generateReported_eq (settings : Settings) (session : Session) (spec : ModuleSpec)
    (directory : Path) :
    session.generateReported settings spec directory =
      (session.prepare settings spec).2.conclude spec directory
        (session.prepare settings spec).1 := by
  unfold generateReported generate prepare
  rcases session.build settings spec with ⟨_ | ns, built⟩
  · rfl
  · dsimp only
    rcases built.augment settings spec.module ns with ⟨_ | ns, augmented⟩
    · rfl
    · rfl

/-- Writing a stub leaves alone what neither depends on the files nor on the events. -/
theorem view_emit {α : Sort*} (view : Session → α)
    (htree : ∀ session tree, view { session with tree := tree } = view session)
    (hsay : ∀ session events, view (session.say events) = view session)
    (session : Session) (module : String) (directory : Path) (ns : Namespace) :
    view (session.emit module directory ns).2 = view session := by
  have hwrite (path : Path) : view (session.write ns path).2 = view session := by
    unfold write
    split
    · rw [htree]
    · dsimp only
      split
      · rw [hsay, htree]
      · rw [htree, hsay, htree]
  unfold emit
  split
  · rfl
  · dsimp only
    have hwritten := hwrite (Stub.location directory module)
    generalize session.write ns (Stub.location directory module) = written at hwritten ⊢
    exact hwritten

/-- The stub of a module is reported under the name of the module. -/
theorem module_of_emit {module : String} {ns : Namespace} {report : Report}
    (h : (session.emit module directory ns).1 = .ok report) : report.module = module := by
  unfold emit at h
  split at h
  · obtain rfl := Except.ok.inj h
    rfl
  · dsimp only at h
    generalize session.write ns (Stub.location directory module) = written at h
    obtain ⟨_ | _, _⟩ := written
    · exact nomatch h
    · obtain rfl := Except.ok.inj h
      rfl

/-- Whatever comes of a module is reported under its name. -/
theorem module_conclude (session : Session) (spec : ModuleSpec) (directory : Path)
    (prepared : Except Error Namespace) :
    (session.conclude spec directory prepared).1.module = spec.module := by
  cases prepared with
  | error e => rfl
  | ok ns =>
    simp only [conclude]
    split
    · next report written hemit => exact module_of_emit (congrArg Prod.fst hemit)
    · rfl

/-- Whatever comes of a module, its report leaves alone what neither depends on the files nor on the
events. -/
theorem view_conclude {α : Sort*} (view : Session → α)
    (htree : ∀ session tree, view { session with tree := tree } = view session)
    (hsay : ∀ session events, view (session.say events) = view session)
    (session : Session) (spec : ModuleSpec) (directory : Path)
    (prepared : Except Error Namespace) :
    view (session.conclude spec directory prepared).2 = view session := by
  cases prepared with
  | error e => exact hsay session _
  | ok ns =>
    have hview := view_emit view htree hsay session spec.module directory ns
    simp only [conclude]
    split
    · next report written hemit => rwa [hemit] at hview
    · next e written hemit =>
      rw [hemit] at hview
      rw [hsay, hview]

/-- Preparing a module uses the cache only to build its namespace, and it leaves the files
alone. -/
theorem prepare_cache_and_tree (settings : Settings) (session : Session) (spec : ModuleSpec) :
    (session.prepare settings spec).2.cache =
        (spec.build session.tree settings.style session.cache).cache ∧
      (session.prepare settings spec).2.tree = session.tree := by
  have haugment (session : Session) (ns : Namespace) :
      (session.augment settings spec.module ns).2.cache = session.cache ∧
        (session.augment settings spec.module ns).2.tree = session.tree := by
    unfold augment
    cases settings.introspector? with
    | none => exact ⟨rfl, rfl⟩
    | some introspector => exact ⟨rfl, rfl⟩
  unfold prepare
  generalize hbuild : session.build settings spec = built
  have hbuilt : built.2.cache =
        (spec.build session.tree settings.style session.cache).cache ∧
      built.2.tree = session.tree := by
    rw [← hbuild]
    exact ⟨rfl, rfl⟩
  obtain ⟨_ | ns, built⟩ := built
  · exact hbuilt
  · obtain ⟨hcache, htree⟩ := haugment built ns
    exact ⟨hcache.trans hbuilt.1, htree.trans hbuilt.2⟩

/-- After a module, the cache is as building its namespace has left it. -/
theorem cache_generateReported (settings : Settings) (session : Session) (spec : ModuleSpec)
    (directory : Path) :
    (session.generateReported settings spec directory).2.cache =
      (spec.build session.tree settings.style session.cache).cache := by
  rw [generateReported_eq, view_conclude Session.cache (fun _ _ => rfl) (fun _ _ => rfl),
    (prepare_cache_and_tree ..).1]

/-- A module that fails before its stub is written leaves the files alone. -/
theorem tree_generateReported_of_failed {e : Error}
    (hfails : (session.prepare settings spec).1 = .error e) (directory : Path) :
    (session.generateReported settings spec directory).2.tree = session.tree := by
  rw [generateReported_eq, hfails]
  exact (session.prepare_cache_and_tree settings spec).2

/-! ## Runs -/

/-- Every module is reported, in order and under its name. -/
theorem modules_generateAll (settings : Settings) (session : Session) (directory : Path)
    (specs : List ModuleSpec) :
    (session.generateAll settings directory specs).1.map Report.module =
      specs.map ModuleSpec.module := by
  induction specs generalizing session with
  | nil => rfl
  | cons spec rest ih =>
    have hmodule : (session.generateReported settings spec directory).1.module = spec.module := by
      rw [generateReported_eq, module_conclude]
    simp only [generateAll, List.map_cons, hmodule, ih]

/-- A run of modules is a run of the first ones and then of the others. -/
theorem generateAll_append (settings : Settings) (session : Session) (directory : Path)
    (before after : List ModuleSpec) :
    session.generateAll settings directory (before ++ after) =
      let reached := (session.generateAll settings directory before).2
      ((session.generateAll settings directory before).1 ++
          (reached.generateAll settings directory after).1,
        (reached.generateAll settings directory after).2) := by
  induction before generalizing session with
  | nil => rfl
  | cons spec rest ih => simp only [List.cons_append, generateAll, ih]

/-- A last module that fails before its stub is written leaves the files of the run alone. -/
theorem tree_generateAll_of_failed {before : List ModuleSpec} {e : Error}
    (hfails : ((session.generateAll settings directory before).2.prepare settings spec).1 =
      .error e) :
    (session.generateAll settings directory (before ++ [spec])).2.tree =
      (session.generateAll settings directory before).2.tree := by
  rw [generateAll_append]
  exact tree_generateReported_of_failed hfails directory

/-- The report of a module in a run is made in the session that the modules before it leave. -/
theorem getElem?_generateAll (settings : Settings) (session : Session) (directory : Path)
    (before : List ModuleSpec) (spec : ModuleSpec) (after : List ModuleSpec) :
    (session.generateAll settings directory (before ++ spec :: after)).1[before.length]? =
      some (((session.generateAll settings directory before).2.generateReported settings spec
        directory).1) := by
  have hlength : (session.generateAll settings directory before).1.length = before.length := by
    have hmodules := congrArg List.length (modules_generateAll settings session directory before)
    simpa using hmodules
  rw [generateAll_append, ← hlength]
  simp [generateAll]

/-- Whenever a module is generated in a run, its inputs read as they did before the run. -/
def KeepsInputs (settings : Settings) (tree : Tree) (modulePath : List String) (directory : Path)
    (specs : List ModuleSpec) : Prop :=
  ∀ before spec after, specs = before ++ spec :: after → ∀ path, spec.IsInput tree path →
    ((start tree modulePath).generateAll settings directory before).2.tree.readFile path =
      tree.readFile path

variable {tree : Tree} {modulePath : List String}

/-- A run of no modules keeps the inputs. -/
theorem keepsInputs_nil (settings : Settings) (tree : Tree) (modulePath : List String)
    (directory : Path) : KeepsInputs settings tree modulePath directory [] := by
  intro before spec after hsplit
  simp at hsplit

/-- A run keeps the inputs if the last module finds its own as they were and the others do. -/
theorem KeepsInputs.append_singleton {specs : List ModuleSpec}
    (h : KeepsInputs settings tree modulePath directory specs)
    (hlast : ∀ path, spec.IsInput tree path →
      ((start tree modulePath).generateAll settings directory specs).2.tree.readFile path =
        tree.readFile path) :
    KeepsInputs settings tree modulePath directory (specs ++ [spec]) := by
  intro before other after hsplit
  rcases List.eq_nil_or_concat after with rfl | ⟨rest, last, rfl⟩
  · obtain ⟨rfl, heq⟩ := List.append_inj' hsplit rfl
    obtain rfl : spec = other := by simpa using heq
    exact hlast
  · rw [List.concat_eq_append, ← List.cons_append, ← List.append_assoc] at hsplit
    obtain ⟨rfl, _⟩ := List.append_inj' hsplit rfl
    exact h before other rest rfl

/-- In a run that keeps the inputs, the cache stays sound for the tree before the run. -/
theorem KeepsInputs.sound {before after : List ModuleSpec}
    (h : KeepsInputs settings tree modulePath directory (before ++ after)) :
    ((start tree modulePath).generateAll settings directory before).2.cache.Sound tree := by
  induction before using List.reverseRecOn generalizing after with
  | nil => exact Defs.Cache.sound_empty tree
  | append_singleton before spec ih =>
    rw [List.append_assoc] at h
    have hbefore := ih h
    have hinputs := h before spec after rfl
    rw [generateAll_append]
    simp only [generateAll, cache_generateReported]
    exact (ModuleSpec.build_alike hbefore hbefore hinputs settings.style).sound_left

/-- If the inputs of a module read as before and the cache is sound, the module is prepared as in a
session that has just begun. -/
theorem prepare_eq_of_sound (hcache : session.cache.Sound tree)
    (hinputs : ∀ path, spec.IsInput tree path →
      session.tree.readFile path = tree.readFile path) (settings : Settings)
    (modulePath : List String) :
    (session.build settings spec).1 = ((start tree modulePath).build settings spec).1 ∧
      (session.prepare settings spec).1 = ((start tree modulePath).prepare settings spec).1 := by
  have hbuild : (session.build settings spec).1 =
      ((start tree modulePath).build settings spec).1 :=
    (ModuleSpec.build_alike hcache (Defs.Cache.sound_empty tree) hinputs settings.style).result
  refine ⟨hbuild, ?_⟩
  unfold prepare
  generalize session.build settings spec = built at hbuild
  generalize (start tree modulePath).build settings spec = freshlyBuilt at hbuild
  obtain ⟨result, built⟩ := built
  obtain ⟨_, freshlyBuilt⟩ := freshlyBuilt
  obtain rfl : result = _ := hbuild
  cases result with
  | error e => rfl
  | ok ns =>
    -- What is known of live modules does not depend on the session.
    dsimp only
    unfold augment
    cases settings.introspector? <;> rfl

/-- In a run in which every module finds its inputs as they were before the run, every module is
reported, in order and under its name. Whatever became of the modules before it, its namespace or
the error in its place and the text of its stub are those of a run that has just begun, and its
report is what writing this stub leads to. -/
theorem generateAll_isolated (settings : Settings) (tree : Tree) (modulePath : List String)
    (directory : Path) (specs : List ModuleSpec)
    (hinputs : KeepsInputs settings tree modulePath directory specs) :
    let fresh := start tree modulePath
    let reports := (fresh.generateAll settings directory specs).1
    reports.map Report.module = specs.map ModuleSpec.module ∧
      ∀ before spec after, specs = before ++ spec :: after →
        let reached := (fresh.generateAll settings directory before).2
        (reached.build settings spec).1 = (fresh.build settings spec).1 ∧
          (reached.prepare settings spec).1 = (fresh.prepare settings spec).1 ∧
          reached.stubText settings spec = fresh.stubText settings spec ∧
          reports[before.length]? =
            some ((reached.prepare settings spec).2.conclude spec directory
              (fresh.prepare settings spec).1).1 := by
  intro fresh reports
  refine ⟨modules_generateAll settings fresh directory specs, ?_⟩
  rintro before spec after rfl
  intro reached
  have hcache : reached.cache.Sound tree := hinputs.sound
  obtain ⟨hbuild, hprepare⟩ :=
    prepare_eq_of_sound hcache (hinputs before spec after rfl) settings modulePath
  refine ⟨hbuild, hprepare, congrArg (Except.map Stub.render) hprepare, ?_⟩
  rw [getElem?_generateAll, generateReported_eq, hprepare]

/-! ## Two small runs -/

/-- Files with the given names and texts. -/
def treeOf (texts : List (String × String)) : Tree :=
  ⟨texts.map fun entry => ([entry.1], .file entry.2.toUTF8), []⟩

/-- Settings under which only the module `m` can be imported. -/
def settingsOfConstant : Settings :=
  ⟨.pygtk, some ⟨[], fun module => .ok (if module = "m" then some [("X", .int 1)] else none)⟩⟩

/-- A module of which only the constant is known. -/
def specOfConstant : ModuleSpec :=
  ⟨"m", []⟩

/-- A module with a definition file. -/
def specOfDefinitions : ModuleSpec :=
  ⟨"n", [⟨"n.defs"⟩]⟩

/-- The session after the module with the constant, whose stub is written into the directory
`out`. -/
def afterConstant (tree : Tree) : Session :=
  ((start tree []).generateAll settingsOfConstant ⟨"out"⟩ [specOfConstant]).2

/-- No definition file, no input. -/
theorem not_isInput_of_constant {path : Path} (h : specOfConstant.IsInput tree path) : False := by
  cases h with
  | ofDefinitions hlisted _ => exact nomatch hlisted
  | ofOverrides hlisted _ => exact nomatch hlisted

/-- A run keeps the inputs of a module that finds them unchanged after the one with the
constant. -/
theorem keepsInputs_afterConstant
    (hinputs : ∀ path, specOfDefinitions.IsInput tree path →
      (afterConstant tree).tree.readFile path = tree.readFile path) :
    KeepsInputs settingsOfConstant tree [] ⟨"out"⟩ [specOfConstant, specOfDefinitions] := by
  have hfirst : KeepsInputs settingsOfConstant tree [] ⟨"out"⟩ [specOfConstant] :=
    (keepsInputs_nil settingsOfConstant tree [] ⟨"out"⟩).append_singleton
      fun _ h => (not_isInput_of_constant h).elim
  exact hfirst.append_singleton hinputs

/-- A definition file includes another one, and the stub of another module is written before. -/
theorem generateAll_isolated_afterConstant :
    let tree := treeOf [("n.defs", "(include \"f.defs\")"), ("f.defs", "(define-function f)")]
    KeepsInputs settingsOfConstant tree [] ⟨"out"⟩ [specOfConstant, specOfDefinitions] ∧
      (afterConstant tree).tree.isFile ⟨"out/m.pi"⟩ = true ∧
      ((afterConstant tree).prepare settingsOfConstant specOfDefinitions).1 =
        ((start tree []).prepare settingsOfConstant specOfDefinitions).1 ∧
      (afterConstant tree).stubText settingsOfConstant specOfDefinitions =
        (start tree []).stubText settingsOfConstant specOfDefinitions := by
  intro tree
  let paths : List Path := [⟨"n.defs"⟩, ⟨"n.override"⟩, ⟨"f.defs"⟩]
  have hreads : ∀ path ∈ paths, (afterConstant tree).tree.readFile path = tree.readFile path := by
    decide +kernel
  have hinputs : ∀ path, specOfDefinitions.IsInput tree path → path ∈ paths := by
    intro path hinput
    exact hinput.mem_of_closed (by decide +kernel) (by decide +kernel) (by decide +kernel)
  have hkeeps := keepsInputs_afterConstant fun path h => hreads path (hinputs path h)
  obtain ⟨_, hmodule⟩ := generateAll_isolated settingsOfConstant tree [] ⟨"out"⟩
    [specOfConstant, specOfDefinitions] hkeeps
  obtain ⟨_, hprepare, hstub, _⟩ := hmodule [specOfConstant] specOfDefinitions [] rfl
  exact ⟨hkeeps, by decide +kernel, hprepare, hstub⟩

/-- What can be read at a path stays as it is, and what is not there does not come to be there;
but it may be missing for another reason. -/
def KeepsFile (tree other : Tree) (path : Path) : Prop :=
  (tree.isFile path = true → other.readFile path = tree.readFile path) ∧
    ((tree.locate path).isOk = false → (other.locate path).isOk = false)

instance (tree other : Tree) (path : Path) : Decidable (KeepsFile tree other path) :=
  inferInstanceAs (Decidable (_ ∧ _))

/-- The module with a definition file fails if this file is missing and the override file that
belongs to it begins with a path that cannot be read. -/
theorem prepare_of_unreadable_include (settings : Settings) (session : Session) {key : Files.Key}
    {content : ByteArray} {included : Path} {rest : List OverrideTask} {e : Files.OsError}
    (hnone : session.tree.isFile ⟨"n.defs"⟩ = false)
    (hread : session.tree.readFile (overridePath ⟨"n.defs"⟩) = .ok (key, content))
    (htasks : OverrideReading.tasksOfText (overridePath ⟨"n.defs"⟩)
      (Text.decodeLenient content) = .readFile included :: rest)
    (hunreadable : session.tree.readFile included = .error e) :
    (session.prepare settings specOfDefinitions).1 = .error (.os e) := by
  have hreading : ∃ reading, readOverrides session.tree (overridePath ⟨"n.defs"⟩) =
      (reading, some (.os e)) := by
    unfold readOverrides
    rw [OverrideReading.run_of_new hread List.not_mem_nil, htasks, List.cons_append,
      OverrideReading.run_of_unreadable hunreadable]
    exact ⟨_, rfl⟩
  obtain ⟨reading, hreading⟩ := hreading
  have hfile : session.tree.isFile (overridePath ⟨"n.defs"⟩) = true := by
    rw [Tree.isFile, hread]
  have hbuild : (session.build settings specOfDefinitions).1 = .error (.os e) := by
    simp [build, ModuleSpec.build, specOfDefinitions, Building.addFiles, Building.addDefinitions,
      Building.addOverrides, Building.andThen, Building.after, hnone, hfile, hreading]
  unfold prepare
  generalize session.build settings specOfDefinitions = built at hbuild
  obtain ⟨result, built⟩ := built
  obtain rfl : result = .error (.os e) := hbuild
  rfl

/-- A stub that stands where the directory of a missing input would be changes the error of the
module that asks for this input, though no input is changed and none comes to be there. -/
theorem error_of_missing_input_changes :
    let tree := treeOf [("n.override", "include out/m.pi/x\n")]
    let fresh := start tree []
    let specs := [specOfConstant, specOfDefinitions]
    (∀ before, before <+: specs → ∀ spec ∈ specs, ∀ path, spec.IsInput tree path →
        KeepsFile tree (fresh.generateAll settingsOfConstant ⟨"out"⟩ before).2.tree path) ∧
      ((afterConstant tree).prepare settingsOfConstant specOfDefinitions).1 =
        .error (.os .notDirectory) ∧
      (fresh.prepare settingsOfConstant specOfDefinitions).1 = .error (.os .notFound) := by
  intro tree fresh specs
  let paths : List Path := [⟨"n.defs"⟩, ⟨"n.override"⟩, ⟨"out/m.pi/x"⟩]
  have hlisted : ∀ spec ∈ specs, ∀ listed ∈ spec.definitions,
      listed ∈ paths ∧ overridePath listed ∈ paths := by
    decide +kernel
  have hinputs : ∀ spec ∈ specs, ∀ path, spec.IsInput tree path → path ∈ paths := by
    intro spec hspec path hinput
    exact hinput.mem_of_closed (hlisted spec hspec) (by decide +kernel) (by decide +kernel)
  have hkeeps : ∀ path ∈ paths, KeepsFile tree (afterConstant tree).tree path := by
    decide +kernel
  have htasks : OverrideReading.tasksOfText (overridePath ⟨"n.defs"⟩)
      (Text.decodeLenient "include out/m.pi/x\n".toUTF8) = [.readFile ⟨"out/m.pi/x"⟩] := by
    have htext : Text.decodeLenient "include out/m.pi/x\n".toUTF8 = "include out/m.pi/x\n" := by
      decide +kernel
    have hpath : overridePath ⟨"n.defs"⟩ = ⟨"n.override"⟩ := by decide +kernel
    rw [htext, hpath]
    rfl
  have hprepare (session : Session) (e : Files.OsError)
      (hnone : session.tree.isFile ⟨"n.defs"⟩ = false)
      (hread : session.tree.readFile (overridePath ⟨"n.defs"⟩) =
        .ok (["n.override"], "include out/m.pi/x\n".toUTF8))
      (hunreadable : session.tree.readFile ⟨"out/m.pi/x"⟩ = .error e) :
      (session.prepare settingsOfConstant specOfDefinitions).1 = .error (.os e) :=
    prepare_of_unreadable_include settingsOfConstant session hnone hread htasks hunreadable
  have hafter := hprepare (afterConstant tree) .notDirectory (by decide +kernel)
    (by decide +kernel) (by decide +kernel)
  have hfresh := hprepare fresh .notFound (by decide +kernel) (by decide +kernel)
    (by decide +kernel)
  refine ⟨?_, hafter, hfresh⟩
  intro before hprefix spec hspec path hinput
  have hpath := hinputs spec hspec path hinput
  rcases List.prefix_cons_iff.mp hprefix with rfl | ⟨rest, rfl, hrest⟩
  · exact ⟨fun _ => rfl, id⟩
  · rcases List.prefix_cons_iff.mp hrest with rfl | ⟨rest, rfl, hnil⟩
    · exact hkeeps path hpath
    · obtain rfl := List.prefix_nil.mp hnil
      have hsame := tree_generateAll_of_failed hafter
      rw [List.cons_append, List.nil_append] at hsame
      rw [hsame]
      exact hkeeps path hpath

end Session

end Stubgen
