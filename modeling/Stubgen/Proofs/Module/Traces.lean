import Stubgen.Proofs.Files.Writing
import Stubgen.Proofs.Module.Isolation

/-!
# What a module leaves behind

Before anything of a module is written, its definition files are read and parsed, its namespace is
built, overrides are applied and the live module is examined. Each of these stages may fail. This
file tells what is left in the files afterwards: nothing if a stage fails or if there is nothing to
show, and otherwise a single file with the directories that hold it.
-/

namespace Stubgen

open Files (OsError Path Tree)

/-! ## Where a stub is written -/

namespace Stub

/-- A joined path ends with what is joined to it. -/
theorem suffix_join (path target : Path) :
    target.text.toList <:+ (path.join target).text.toList := by
  unfold Path.join
  split
  · exact List.suffix_rfl
  · split
    · rw [String.toList_append]
      exact List.suffix_append _ _
    · rw [String.toList_append]
      exact List.suffix_append _ _

/-- The path of a stub does not end with two dots. -/
theorem getLast?_steps_location (directory : Path) (module : String) :
    (location directory module).steps.getLast? ≠ some ".." := by
  have hending : ['.', 'p', 'i'] <:+ (location directory module).text.toList := by
    refine List.IsSuffix.trans ?_ (suffix_join _ _)
    rw [String.toList_append]
    exact List.suffix_append _ _
  obtain ⟨name, hname, hsuffix⟩ := Tree.getLast?_steps_of_ending (by decide) (by decide) hending
  rw [hname]
  intro heq
  rw [Option.some.inj heq] at hsuffix
  exact absurd hsuffix (by decide)

end Stub

/-! ## Stages that fail -/

namespace Building

/-- What comes of one definition file and the override file that belongs to it. -/
def addFile (tree : Tree) (style : DocStyle) (path : Path) (ns : Namespace) (cache : Defs.Cache) :
    Building :=
  (addDefinitions tree style path ns cache).andThen (addOverrides tree path)

/-- Taking up files one after the other stops with an error. -/
inductive FilesFail (tree : Tree) (style : DocStyle) :
    Namespace → Defs.Cache → List Path → Error → Prop
  /-- A definition file, or one that it includes, cannot be read or parsed. -/
  | expanding {ns cache path rest e} (hfile : tree.isFile path = true)
      (hexpand : (Defs.expand tree cache path).result = .error e) :
      FilesFail tree style ns cache (path :: rest) e
  /-- A definition cannot be taken up. -/
  | defining {ns cache path rest e records} (hfile : tree.isFile path = true)
      (hexpand : (Defs.expand tree cache path).result = .ok records)
      (hdefine : (ns.defineAll style records).error? = some e) :
      FilesFail tree style ns cache (path :: rest) e
  /-- An override file, or one that it includes, cannot be read. -/
  | overriding {ns cache path rest e defined}
      (hdefined : (addDefinitions tree style path ns cache).result = .ok defined)
      (hfile : tree.isFile (overridePath path) = true)
      (hread : (readOverrides tree (overridePath path)).2 = some e) :
      FilesFail tree style ns cache (path :: rest) e
  /-- A file is taken up and a later one stops with an error. -/
  | later {ns cache path rest e reached}
      (hfile : (addFile tree style path ns cache).result = .ok reached)
      (hrest : FilesFail tree style reached (addFile tree style path ns cache).cache rest e) :
      FilesFail tree style ns cache (path :: rest) e

variable {tree : Tree} {style : DocStyle} {ns : Namespace} {cache : Defs.Cache} {path : Path}
  {e : Error}

/-- What goes on fails if one of its parts does. -/
theorem result_andThen_eq_error_iff {building : Building}
    {next : Namespace → Defs.Cache → Building} :
    (building.andThen next).result = .error e ↔
      building.result = .error e ∨
        ∃ ns, building.result = .ok ns ∧ (next ns building.cache).result = .error e := by
  unfold andThen
  cases hresult : building.result with
  | error e' => simp [hresult]
  | ok ns => simp [after]

/-- Taking up the definitions of a file fails if the file cannot be expanded or one of them cannot
be taken up. -/
theorem result_addDefinitions_eq_error_iff :
    (addDefinitions tree style path ns cache).result = .error e ↔
      tree.isFile path = true ∧ ((Defs.expand tree cache path).result = .error e ∨
        ∃ records, (Defs.expand tree cache path).result = .ok records ∧
          (ns.defineAll style records).error? = some e) := by
  unfold addDefinitions
  split
  · next hfile =>
    dsimp only
    cases hexpand : (Defs.expand tree cache path).result with
    | error e' => simp [hfile]
    | ok records =>
      cases hdefine : (ns.defineAll style records).error? with
      | none => simp [hdefine]
      | some e' => simp [hfile, hdefine]
  · next hfile => simp [hfile]

/-- Applying an override file fails if it cannot be read. -/
theorem result_addOverrides_eq_error_iff :
    (addOverrides tree path ns cache).result = .error e ↔
      tree.isFile (overridePath path) = true ∧
        (readOverrides tree (overridePath path)).2 = some e := by
  unfold addOverrides
  dsimp only
  split
  · next hfile =>
    rcases readOverrides tree (overridePath path) with ⟨reading, _ | e'⟩
    · simp
    · simp [hfile]
  · next hfile => simp [hfile]

/-- Files are not all taken up exactly if one of the stages fails. -/
theorem result_addFiles_eq_error_iff {paths : List Path} :
    (addFiles tree style ns cache paths).result = .error e ↔
      FilesFail tree style ns cache paths e := by
  induction paths generalizing ns cache with
  | nil =>
    refine iff_of_false (fun h => nomatch h) fun h => nomatch h
  | cons path rest ih =>
    rw [addFiles, ← addFile, result_andThen_eq_error_iff]
    constructor
    · rintro (hfile | ⟨reached, hfile, hrest⟩)
      · rcases result_andThen_eq_error_iff.mp hfile with hdefine | ⟨defined, hdefined, hread⟩
        · obtain ⟨hthere, hexpand | ⟨records, hexpand, hdefine⟩⟩ :=
            result_addDefinitions_eq_error_iff.mp hdefine
          · exact .expanding hthere hexpand
          · exact .defining hthere hexpand hdefine
        · obtain ⟨hthere, hread⟩ := result_addOverrides_eq_error_iff.mp hread
          exact .overriding hdefined hthere hread
      · exact .later hfile (ih.mp hrest)
    · intro hfails
      cases hfails with
      | expanding hthere hexpand =>
        refine .inl (result_andThen_eq_error_iff.mpr (.inl ?_))
        exact result_addDefinitions_eq_error_iff.mpr ⟨hthere, .inl hexpand⟩
      | defining hthere hexpand hdefine =>
        refine .inl (result_andThen_eq_error_iff.mpr (.inl ?_))
        exact result_addDefinitions_eq_error_iff.mpr ⟨hthere, .inr ⟨_, hexpand, hdefine⟩⟩
      | overriding hdefined hthere hread =>
        refine .inl (result_andThen_eq_error_iff.mpr (.inr ⟨_, hdefined, ?_⟩))
        exact result_addOverrides_eq_error_iff.mpr ⟨hthere, hread⟩
      | later hfile hrest => exact .inr ⟨_, hfile, ih.mpr hrest⟩

end Building

/-- A report counts what a text shows: each class, function and constant of a namespace once, in
some order. -/
structure Report.Counts (report : Report) (ns : Namespace) (text : String) : Prop where
  classes_eq : report.classes = ns.classes.values.length
  functions_eq : report.functions = ns.functions.values.length
  constants_eq : report.constants = ns.constants.values.length
  shown : ∃ shown : List String, text = String.join (shown.map Stub.chunk) ∧
    shown.Perm (ns.classes.values.map (Stub.renderClass ns) ++
      ns.functions.values.map (Stub.renderCallable ns.shownName) ++ ns.constants.values)

/-- A namespace has no class, no function and no constant. -/
def Namespace.DefinesNothing (ns : Namespace) : Prop :=
  ns.classes.entries = [] ∧ ns.functions.entries = [] ∧ ns.constants.entries = []

/-- The directories that hold a file cannot be made, or they can be and the file cannot be
written. -/
def Files.Tree.RefusesToWrite (tree : Tree) (path : Path) (content : ByteArray)
    (reason : OsError) : Prop :=
  (tree.makeDirectories path.directory).1 = .error reason ∨
    (tree.makeDirectories path.directory).1 = .ok () ∧
      (tree.makeDirectories path.directory).2.writeFile path content = .error reason

namespace Session

/-- A module fails with an error before anything is written. -/
inductive FailsToPrepare (settings : Settings) (session : Session) (spec : ModuleSpec) (e : Error) :
    Prop
  /-- Its files cannot be taken up. -/
  | files (h : Building.FilesFail session.tree settings.style .empty session.cache
      spec.definitions e)
  /-- The live module cannot be examined. -/
  | examining {ns introspector} (hbuild : (session.build settings spec).1 = .ok ns)
      (hlive : settings.introspector? = some introspector)
      (hexamine : ns.augmentFrom introspector spec.module = .error e)

variable {settings : Settings} {session : Session} {spec : ModuleSpec} {directory path : Path}
  {ns : Namespace} {e : Error}

/-- A module is not prepared exactly if one of the stages fails. -/
theorem prepare_eq_error_iff :
    (session.prepare settings spec).1 = .error e ↔ session.FailsToPrepare settings spec e := by
  have hbuild : (session.build settings spec).1 = .error e ↔
      Building.FilesFail session.tree settings.style .empty session.cache spec.definitions e :=
    Building.result_addFiles_eq_error_iff
  have haugment (built : Session) (ns : Namespace) :
      (built.augment settings spec.module ns).1 = .error e ↔ ∃ introspector,
        settings.introspector? = some introspector ∧
          ns.augmentFrom introspector spec.module = .error e := by
    unfold augment
    cases settings.introspector? with
    | none => simp
    | some introspector =>
      cases hexamine : ns.augmentFrom introspector spec.module with
      | error e' => simp [Except.map, hexamine]
      | ok augmented => simp [Except.map, hexamine]
  constructor
  · intro h
    unfold prepare at h
    generalize hbuilt : session.build settings spec = built at h hbuild
    obtain ⟨e' | ns, built⟩ := built
    · exact .files (hbuild.mp h)
    · obtain ⟨introspector, hlive, hexamine⟩ := (haugment built ns).mp h
      exact .examining (by rw [hbuilt]) hlive hexamine
  · intro h
    unfold prepare
    generalize hbuilt : session.build settings spec = built at hbuild
    cases h with
    | files hfiles =>
      obtain ⟨result, built⟩ := built
      obtain rfl : result = .error e := hbuild.mpr hfiles
      rfl
    | examining hresult hlive hexamine =>
      obtain ⟨result, built⟩ := built
      rw [hbuilt] at hresult
      obtain rfl : result = .ok _ := hresult
      exact (haugment built _).mpr ⟨_, hlive, hexamine⟩

/-- A module is generated from what has been prepared. -/
theorem generate_eq (settings : Settings) (session : Session) (spec : ModuleSpec)
    (directory : Path) :
    session.generate settings spec directory =
      match (session.prepare settings spec).1 with
      | .error e => (.error e, (session.prepare settings spec).2)
      | .ok ns => (session.prepare settings spec).2.emit spec.module directory ns := by
  unfold generate prepare
  rcases session.build settings spec with ⟨_ | ns, built⟩
  · rfl
  · dsimp only
    rcases built.augment settings spec.module ns with ⟨_ | ns, augmented⟩
    · rfl
    · rfl

/-! ## Writing -/

/-- A stub that is refused is an error, and directories that hold it may have been made. -/
theorem write_of_refused {reason : OsError}
    (h : session.tree.RefusesToWrite path (Stub.render ns).toUTF8 reason) :
    (session.write ns path).1 = .error (.os reason) ∧
      session.tree.GrowsBy (fun holder => holder.Holds path) (session.write ns path).2.tree := by
  have hgrows := session.tree.growsBy_makeDirectories path
  unfold Tree.RefusesToWrite at h
  unfold write
  generalize session.tree.makeDirectories path.directory = making at h hgrows ⊢
  obtain ⟨result, made⟩ := making
  rcases h with hmake | ⟨hmake, hwrite⟩
  · obtain rfl : result = .error reason := hmake
    exact ⟨rfl, hgrows⟩
  · obtain rfl : result = .ok () := hmake
    dsimp only at hwrite ⊢
    rw [hwrite]
    exact ⟨rfl, hgrows⟩

/-- A stub that is not refused is written, and no other file changes. -/
theorem write_of_not_refused (hlast : path.steps.getLast? ≠ some "..")
    (h : ∀ reason, ¬session.tree.RefusesToWrite path (Stub.render ns).toUTF8 reason) :
    (session.write ns path).1 = .ok () ∧
      session.tree.WritesOnly (session.write ns path).2.tree path (Stub.render ns).toUTF8 := by
  have hgrows := session.tree.growsBy_makeDirectories path
  unfold Tree.RefusesToWrite at h
  unfold write
  generalize session.tree.makeDirectories path.directory = making at h hgrows ⊢
  obtain ⟨reason | _, made⟩ := making
  · exact absurd (.inl rfl) (h reason)
  · cases hwrite : made.writeFile path (Stub.render ns).toUTF8 with
    | error reason => exact absurd (.inr ⟨rfl, hwrite⟩) (h reason)
    | ok written =>
      dsimp only [say]
      rw [hwrite]
      exact ⟨rfl, hgrows.writesOnly hlast hwrite⟩

/-- The report of a stub counts what the stub shows. -/
theorem counts_reportOf (ns : Namespace) (module : String) (path : Path) :
    (reportOf ns module path).Counts ns (Stub.render ns) where
  classes_eq := List.length_map _ |>.symm
  functions_eq := List.length_map _ |>.symm
  constants_eq := List.length_map _ |>.symm
  shown := by
    refine ⟨(Stub.sortEntries (Stub.entries ns)).map (·.2), ?_, ?_⟩
    · rw [List.map_map]
      rfl
    · have hentries : (Stub.entries ns).map (·.2) =
          ns.classes.values.map (Stub.renderClass ns) ++
            ns.functions.values.map (Stub.renderCallable ns.shownName) ++ ns.constants.values := by
        simp [Stub.entries, Table.values, Function.comp_def]
      rw [← hentries]
      exact (List.mergeSort_perm _ _).map _

/-- A namespace has nothing to write exactly if it has no class, no function and no constant. -/
theorem isEmpty_iff : ns.isEmpty = true ↔ ns.DefinesNothing := by
  simp [Namespace.isEmpty, Namespace.DefinesNothing, Table.isEmpty, and_assoc]

/-! ## What is left -/

/-- How generating a module ends, and the files that it leaves, by what comes of its stages. -/
structure Leaves (settings : Settings) (session : Session) (spec : ModuleSpec) (path : Path)
    (outcome : Except Error Report) (tree : Tree) : Prop where
  /-- The error of a stage that fails is the outcome, and all files are as they were. -/
  failed : ∀ e, session.FailsToPrepare settings spec e → outcome = .error e ∧ tree = session.tree
  /-- If no stage fails, there is a namespace. -/
  prepared : (∀ e, ¬session.FailsToPrepare settings spec e) →
    ∃ ns, (session.prepare settings spec).1 = .ok ns
  /-- If there is nothing to show, all files are as they were. -/
  unwritten : ∀ ns, (session.prepare settings spec).1 = .ok ns → ns.DefinesNothing →
    outcome = .ok ⟨spec.module, none, 0, 0, 0, none⟩ ∧ tree = session.tree
  /-- If there is something to show and it is not refused, a report tells where the stub is and
  counts what it shows. No file has changed but this one, for which only directories that hold it
  have been made. -/
  written : ∀ ns, (session.prepare settings spec).1 = .ok ns → ¬ns.DefinesNothing →
    (∀ reason, ¬session.tree.RefusesToWrite path (Stub.render ns).toUTF8 reason) →
      ∃ report, outcome = .ok report ∧ report.module = spec.module ∧
        report.output? = some path ∧ report.error? = none ∧ report.Counts ns (Stub.render ns) ∧
        session.tree.WritesOnly tree path (Stub.render ns).toUTF8
  /-- If there is something to show and it is refused, the outcome is the reason. Directories that
  hold the stub may have been made. -/
  refused : ∀ ns reason, (session.prepare settings spec).1 = .ok ns → ¬ns.DefinesNothing →
    session.tree.RefusesToWrite path (Stub.render ns).toUTF8 reason →
      outcome = .error (.os reason) ∧
        session.tree.GrowsBy (fun holder => holder.Holds path) tree

/-- A namespace with something to show is emitted by writing its stub. -/
theorem emit_of_something (session : Session) (module : String) (directory : Path)
    (hsomething : ¬ns.DefinesNothing) :
    session.emit module directory ns =
      ((session.write ns (Stub.location directory module)).1.map fun _ =>
          reportOf ns module (Stub.location directory module),
        (session.write ns (Stub.location directory module)).2) := by
  rw [emit, if_neg fun hempty => hsomething (isEmpty_iff.mp hempty)]

/-- A module with something to show is generated by writing its stub. -/
theorem generate_of_something (hprepare : (session.prepare settings spec).1 = .ok ns)
    (hsomething : ¬ns.DefinesNothing) (directory : Path) :
    (session.generate settings spec directory).1 =
        ((session.prepare settings spec).2.write ns (Stub.location directory spec.module)).1.map
          (fun _ => reportOf ns spec.module (Stub.location directory spec.module)) ∧
      (session.generate settings spec directory).2 =
        ((session.prepare settings spec).2.write ns (Stub.location directory spec.module)).2 := by
  rw [generate_eq, hprepare]
  dsimp only
  rw [emit_of_something _ _ _ hsomething]
  simp only [and_self]

/-- Generating a module leaves no trace but its stub and the directories that hold it. -/
theorem leaves_generate (settings : Settings) (session : Session) (spec : ModuleSpec)
    (directory : Path) :
    session.Leaves settings spec (Stub.location directory spec.module)
      (session.generate settings spec directory).1
      (session.generate settings spec directory).2.tree := by
  obtain ⟨-, htree⟩ := session.prepare_cache_and_tree settings spec
  have hgenerate := session.generate_eq settings spec directory
  constructor
  case failed =>
    intro e hfails
    rw [prepare_eq_error_iff.mpr hfails] at hgenerate
    rw [hgenerate]
    exact ⟨rfl, htree⟩
  case prepared =>
    intro hnone
    cases hprepare : (session.prepare settings spec).1 with
    | error e => exact absurd (prepare_eq_error_iff.mp hprepare) (hnone e)
    | ok ns => exact ⟨ns, rfl⟩
  case unwritten =>
    intro ns hprepare hnothing
    rw [hprepare] at hgenerate
    dsimp only at hgenerate
    rw [hgenerate, emit, if_pos (isEmpty_iff.mpr hnothing)]
    exact ⟨rfl, htree⟩
  case written =>
    intro ns hprepare hsomething haccepted
    obtain ⟨houtcome, hsession⟩ := generate_of_something hprepare hsomething directory
    rw [← htree] at haccepted
    obtain ⟨hresult, hwrites⟩ :=
      write_of_not_refused (Stub.getLast?_steps_location directory spec.module) haccepted
    rw [houtcome, hsession, hresult]
    rw [htree] at hwrites
    exact ⟨reportOf ns spec.module _, rfl, rfl, rfl, rfl, counts_reportOf ns _ _, hwrites⟩
  case refused =>
    intro ns reason hprepare hsomething hrefused
    obtain ⟨houtcome, hsession⟩ := generate_of_something hprepare hsomething directory
    rw [← htree] at hrefused
    obtain ⟨hresult, hgrows⟩ := write_of_refused hrefused
    rw [houtcome, hsession, hresult]
    rw [htree] at hgrows
    exact ⟨rfl, hgrows⟩

/-- Whatever generating a module leaves behind is what its stages call for: no trace if one of them
fails or if there is nothing to show, and otherwise the stub and the directories that hold it,
unless the stub is refused. In a run, every module that ends with an error is reported with the text
of the error and nothing else. -/
theorem generateAll_leaves_only_stubs (settings : Settings) (session : Session) (directory : Path)
    (before : List ModuleSpec) (spec : ModuleSpec) (after : List ModuleSpec) :
    let reached := (session.generateAll settings directory before).2
    let outcome := (reached.generate settings spec directory).1
    let reports := (session.generateAll settings directory (before ++ spec :: after)).1
    reached.Leaves settings spec (Stub.location directory spec.module) outcome
        (reached.generate settings spec directory).2.tree ∧
      ∀ e, outcome = .error e →
        reports[before.length]? = some ⟨spec.module, none, 0, 0, 0, some e.message⟩ := by
  intro reached outcome reports
  refine ⟨reached.leaves_generate settings spec directory, fun e hfails => ?_⟩
  have hreport : reports[before.length]? =
      some (reached.generateReported settings spec directory).1 :=
    session.getElem?_generateAll settings directory before spec after
  have hreported : reached.generateReported settings spec directory =
      (.failed spec.module e.message,
        (reached.generate settings spec directory).2.say [.failedModule e spec.module]) := by
    unfold generateReported
    change (reached.generate settings spec directory).1 = .error e at hfails
    generalize reached.generate settings spec directory = generated at hfails ⊢
    obtain ⟨result, generated⟩ := generated
    obtain rfl : result = .error e := hfails
    rfl
  rw [hreport, hreported]
  rfl

/-- A result that has a value is this value. -/
theorem eq_ok_of_toOption {α : Type} {result : Except Error α} {value : α}
    (h : result.toOption = some value) : result = .ok value := by
  cases result with
  | error e => exact nomatch h
  | ok found => exact congrArg Except.ok (Option.some.inj h)

/-- A run of three modules: the first one cannot be examined, the second one has nothing to show,
and the stub of the last one is written into a new directory. -/
theorem generateAll_leaves_only_stubs_of_three :
    let settings : Settings := ⟨.pygtk, some ⟨[], fun module =>
      if module = "b" then .error (.introspection "b" "no display")
      else .ok (if module = "p.m" then some [("X", .int 1)] else none)⟩⟩
    let tree := treeOf [("out.defs", "")]
    let run := (start tree []).generateAll settings ⟨"out"⟩
    let reached := (run [⟨"b", []⟩, ⟨"c", []⟩]).2
    let next := reached.generate settings ⟨"p.m", []⟩ ⟨"out"⟩
    (run [⟨"b", []⟩, ⟨"c", []⟩, ⟨"p.m", []⟩]).1 =
        [⟨"b", none, 0, 0, 0, some "Introspection error: b: no display"⟩,
          ⟨"c", none, 0, 0, 0, none⟩, ⟨"p.m", some ⟨"out/p/m.pi"⟩, 0, 0, 1, none⟩] ∧
      reached.tree = tree ∧
      reached.tree.WritesOnly next.2.tree ⟨"out/p/m.pi"⟩ "X = 1\n".toUTF8 := by
  intro settings tree run reached next
  obtain ⟨hleaves, -⟩ := generateAll_leaves_only_stubs settings (start tree []) ⟨"out"⟩
    [⟨"b", []⟩, ⟨"c", []⟩] ⟨"p.m", []⟩ []
  have hpath : Stub.location ⟨"out"⟩ "p.m" = ⟨"out/p/m.pi"⟩ := by decide +kernel
  have hprepared : ((reached.prepare settings ⟨"p.m", []⟩).1.toOption.map fun ns =>
      (ns.isEmpty, Stub.render ns)) = some (false, "X = 1\n") := by
    decide +kernel
  have hreported : next.1.toOption = some ⟨"p.m", some ⟨"out/p/m.pi"⟩, 0, 0, 1, none⟩ := by
    decide +kernel
  have hreport := eq_ok_of_toOption hreported
  obtain ⟨ns, hprepared, htexts⟩ := Option.map_eq_some_iff.mp hprepared
  have hprepare := eq_ok_of_toOption hprepared
  obtain ⟨hempty, htext⟩ := Prod.mk.inj htexts
  have hsomething : ¬ns.DefinesNothing := fun h => by simp [isEmpty_iff.mpr h] at hempty
  have haccepted : ∀ reason, ¬reached.tree.RefusesToWrite (Stub.location ⟨"out"⟩ "p.m")
      (Stub.render ns).toUTF8 reason := by
    intro reason hrefused
    obtain ⟨hfails, -⟩ := hleaves.refused ns reason hprepare hsomething hrefused
    exact nomatch hreport.symm.trans hfails
  obtain ⟨-, -, -, -, -, -, hwrites⟩ := hleaves.written ns hprepare hsomething haccepted
  rw [hpath, htext] at hwrites
  exact ⟨by decide +kernel, rfl, hwrites⟩

end Session

end Stubgen
