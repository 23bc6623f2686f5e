import Stubgen.Proofs.Module.Includes
import Stubgen.Proofs.Files.Siblings

/-!
# Listing files and including them

A module can list its definition files, or it can list one file that includes them. Listed files
are expanded and taken up one after the other, and included files are expanded before anything is
taken up, while the file that includes them is being expanded. The namespace comes out the same.
-/

namespace Stubgen

open Files (IsName Key Path Tree)

namespace Namespace

open Defs (Record)

/-- The namespace after records; nothing if one of them fails. -/
def defined? (style : DocStyle) (ns : Namespace) (records : List Record) : Option Namespace :=
  match (ns.defineAll style records).error? with
  | some _ => none
  | none => some (ns.defineAll style records).reached

/-- Records are taken up one after the other. -/
theorem defined?_append (style : DocStyle) (ns : Namespace) (records more : List Record) :
    ns.defined? style (records ++ more) =
      (ns.defined? style records).bind (·.defined? style more) := by
  induction records generalizing ns with
  | nil => rfl
  | cons record rest ih =>
    cases hdefine : ns.define style record with
    | error e => simp [defined?, defineAll, hdefine]
    | ok next =>
      have hcons (tail : List Record) :
          ns.defined? style (record :: tail) = next.defined? style tail := by
        simp [defined?, defineAll, hdefine]
      rw [List.cons_append, hcons, hcons, ih]

end Namespace

namespace Building

open Defs (Cache records?)

variable {tree : Tree} {style : DocStyle} {ns : Namespace} {cache : Cache}

/-- A building succeeds with the namespace that its result holds. -/
theorem result_eq_ok_iff {building : Building} :
    building.result = .ok ns ↔ building.result.toOption = some ns := by
  cases building.result <;> simp [Except.toOption]

/-- The definitions of a file are taken up if it can be expanded and they all can be taken up. -/
theorem toOption_addDefinitions (h : cache.Sound tree) {path : Path}
    (hfile : tree.isFile path = true) :
    (addDefinitions tree style path ns cache).result.toOption =
      (records? tree [] path).bind (ns.defined? style) := by
  rw [← Defs.toOption_expandFile_of_sound h]
  unfold addDefinitions Defs.expand Namespace.defined?
  rw [if_pos hfile]
  cases hresult : (Defs.expandFile tree [] cache path).result with
  | error e => simp [hresult, Except.toOption]
  | ok records =>
    simp only [hresult, Except.toOption, Option.bind_some]
    cases (ns.defineAll style records).error? <;> rfl

/-- What goes on succeeds if both parts do. -/
theorem toOption_andThen (building : Building) (next : Namespace → Cache → Building) :
    (building.andThen next).result.toOption =
      building.result.toOption.bind fun ns => (next ns building.cache).result.toOption := by
  unfold andThen
  cases hresult : building.result with
  | error e =>
    rw [hresult]
    rfl
  | ok ns => rfl

/-- An override file that is missing changes nothing. -/
theorem andThen_addOverrides_of_missing {path : Path}
    (hnone : tree.isFile (overridePath path) = false) (building : Building) :
    building.andThen (addOverrides tree path) = building := by
  obtain ⟨result, cache, events⟩ := building
  cases result with
  | error e => rfl
  | ok ns => simp [andThen, addOverrides, hnone, after]

/-- Files without override files are taken up if they all can be expanded and all their definitions
can be taken up in a row. -/
theorem toOption_addFiles (style : DocStyle) (ns : Namespace) (h : cache.Sound tree)
    {paths : List Path}
    (hpaths : ∀ path ∈ paths, tree.isFile path = true ∧ tree.isFile (overridePath path) = false) :
    (addFiles tree style ns cache paths).result.toOption =
      (paths.mapM (records? tree [])).bind fun records => ns.defined? style records.flatten := by
  induction paths generalizing ns cache with
  | nil => rfl
  | cons path rest ih =>
    obtain ⟨hfile, hnone⟩ := hpaths path List.mem_cons_self
    have hrest : ∀ other ∈ rest, tree.isFile other = true ∧
        tree.isFile (overridePath other) = false :=
      fun other hother => hpaths other (List.mem_cons_of_mem path hother)
    have hsound : (addDefinitions tree style path ns cache).cache.Sound tree :=
      (addDefinitions_alike h h fun _ _ => rfl).sound_left
    have hnext (reached : Namespace) := ih reached hsound hrest
    rw [addFiles, andThen_addOverrides_of_missing hnone, toOption_andThen,
      toOption_addDefinitions h hfile, List.mapM_cons]
    simp only [hnext]
    cases records? tree [] path with
    | none => rfl
    | some records =>
      cases rest.mapM (records? tree []) with
      | none => simp
      | some more => simp [Namespace.defined?_append]

end Building

/-- A definition file consists of includes of other files in its directory. None of them has an
override file beside it, and none of the included files leads back to the file itself. -/
structure Gathers (tree : Tree) (directory : Path) (main : String) (names : List String) :
    Prop where
  named : ∀ name ∈ main :: names, IsName name
  exist : ∀ name ∈ names, tree.isFile (directory.join ⟨name⟩) = true
  not_overridden : ∀ name ∈ main :: names,
    tree.isFile (overridePath (directory.join ⟨name⟩)) = false
  /-- The file has one include for each name, and its key is none of those that are read from the
  included files on. -/
  includes : ∃ key content forms, tree.readFile (directory.join ⟨main⟩) = .ok (key, content) ∧
    Defs.readForms (Text.decodeLenient content) = .ok forms ∧
    forms.map Defs.TopLevel.form = names.map Defs.includeForm ∧
    ∀ name ∈ names, ∀ included,
      LeadsTo (Defs.includedPaths tree) (directory.join ⟨name⟩) included →
        ∀ content, tree.readFile included ≠ .ok (key, content)

namespace Gathers

open Defs (records?)

variable {tree : Tree} {directory : Path} {main : String} {names : List String}

/-- The included files exist and have no override files. -/
theorem names_usable (h : Gathers tree directory main names) :
    ∀ path ∈ names.map fun name => directory.join ⟨name⟩,
      tree.isFile path = true ∧ tree.isFile (overridePath path) = false := by
  intro path hpath
  obtain ⟨name, hname, rfl⟩ := List.mem_map.mp hpath
  exact ⟨h.exist name hname, h.not_overridden name (List.mem_cons_of_mem main hname)⟩

/-- The file that includes them exists and has no override file. -/
theorem main_usable (h : Gathers tree directory main names) :
    ∀ path ∈ [directory.join ⟨main⟩],
      tree.isFile path = true ∧ tree.isFile (overridePath path) = false := by
  intro path hpath
  obtain ⟨key, content, forms, hread, -⟩ := h.includes
  rw [List.mem_singleton.mp hpath]
  exact ⟨by rw [Tree.isFile, hread], h.not_overridden main List.mem_cons_self⟩

/-- The file that includes the others gives their records, one file after the other. -/
theorem records?_main (h : Gathers tree directory main names) :
    records? tree [] (directory.join ⟨main⟩) =
      (names.mapM fun name => records? tree [] (directory.join ⟨name⟩)).map List.flatten := by
  obtain ⟨key, content, forms, hread, hforms, hincludes, havoids⟩ := h.includes
  have hmain : IsName main := h.named main List.mem_cons_self
  -- An included file gives what it gives when it is listed, although the file that includes it is
  -- being expanded and may tell the directory by another text.
  have hrecords : ∀ name ∈ names,
      records? tree [key] ((directory.join ⟨main⟩).directory.join ⟨name⟩) =
        records? tree [] (directory.join ⟨name⟩) := by
    intro name hmem
    have hname : IsName name := h.named name (List.mem_cons_of_mem main hmem)
    have hdirectory : (directory.trimmed.join ⟨name⟩).directory =
        (directory.join ⟨name⟩).directory := by
      rw [Path.directory_join hname, Path.directory_join hname, Path.trimmed_trimmed]
    have hrespelled := Defs.records?_respelled (tree.readFile_trimmed_join directory hname)
      hdirectory [key]
    have halike : Defs.ActiveAlike tree [] [key] (directory.join ⟨name⟩) := by
      intro included hleads found other hfound
      have hne : found ≠ key := by
        rintro rfl
        exact havoids name hmem included hleads other hfound
      simpa using hne
    rw [Path.directory_join hmain, hrespelled, Defs.records?_activeAlike halike]
  have hmap (f : String → Option (List Defs.Record)) : names.mapM f = (names.map f).mapM id := by
    rw [List.mapM_map]
    rfl
  rw [Defs.records?_of_includes hread hforms hincludes, hmap, hmap, List.map_congr_left hrecords]

end Gathers

/-- A module that lists files of a directory is built exactly if a module is built that lists one
file which includes them, and the namespaces are equal, whatever the files include and whatever the
caches have been used for. -/
theorem ModuleSpec.build_listed_iff_included {tree : Tree} {directory : Path} {main : String}
    {names : List String} (h : Gathers tree directory main names) (style : DocStyle)
    (module module' : String) (uses uses' : List Defs.Cache.Use) (ns : Namespace) :
    (ModuleSpec.build tree style (.ofUses tree uses)
      ⟨module, names.map fun name => directory.join ⟨name⟩⟩).result = .ok ns ↔
    (ModuleSpec.build tree style (.ofUses tree uses')
      ⟨module', [directory.join ⟨main⟩]⟩).result = .ok ns := by
  have hlisted := Building.toOption_addFiles style .empty (Defs.Cache.sound_ofUses tree uses)
    h.names_usable
  have hincluded := Building.toOption_addFiles style .empty (Defs.Cache.sound_ofUses tree uses')
    h.main_usable
  rw [List.mapM_map] at hlisted
  rw [List.mapM_cons, h.records?_main] at hincluded
  have hequal : (ModuleSpec.build tree style (.ofUses tree uses)
      ⟨module, names.map fun name => directory.join ⟨name⟩⟩).result.toOption =
        (ModuleSpec.build tree style (.ofUses tree uses')
          ⟨module', [directory.join ⟨main⟩]⟩).result.toOption := by
    refine hlisted.trans (Eq.trans ?_ hincluded.symm)
    change (names.mapM fun name => Defs.records? tree [] (directory.join ⟨name⟩)).bind _ = _
    cases names.mapM fun name => Defs.records? tree [] (directory.join ⟨name⟩) with
    | none => rfl
    | some records => simp
  rw [Building.result_eq_ok_iff, Building.result_eq_ok_iff, hequal]

/-- A file that includes itself and another one is listed with it, or both are included by a third
file, which tells their directory by another text than the list. -/
theorem ModuleSpec.build_listed_iff_included_of_cycle :
    let tree : Tree := ⟨[(["d"], .directory),
      (["d", "a.defs"], .file "(include \"a.defs\") (include \"b.defs\")".toUTF8),
      (["d", "b.defs"], .file "(define-function g)".toUTF8),
      (["d", "main.defs"], .file "(include \"a.defs\") (include \"b.defs\")".toUTF8)], []⟩
    Gathers tree ⟨"d/."⟩ "main.defs" ["a.defs", "b.defs"] ∧
    ∃ ns,
      (ModuleSpec.build tree .pygtk .empty
        ⟨"m", [⟨"d/./a.defs"⟩, ⟨"d/./b.defs"⟩]⟩).result = .ok ns ∧
      (ModuleSpec.build tree .pygtk (.ofUses tree [.expand ⟨"d/b.defs"⟩])
        ⟨"n", [⟨"d/./main.defs"⟩]⟩).result = .ok ns := by
  intro tree
  let paths : List Path := [⟨"d/./a.defs"⟩, ⟨"d/./b.defs"⟩, ⟨"d/a.defs"⟩, ⟨"d/b.defs"⟩]
  have hclosed : ∀ path ∈ paths, ∀ included ∈ Defs.includedPaths tree path, included ∈ paths := by
    decide +kernel
  have hkeys : ∀ path ∈ paths,
      (tree.readFile path).toOption.map Prod.fst ≠ some ["d", "main.defs"] := by
    decide +kernel
  have hlisted : ∀ name ∈ ["a.defs", "b.defs"], Path.join ⟨"d/."⟩ ⟨name⟩ ∈ paths := by
    decide +kernel
  have htext : Text.decodeLenient "(include \"a.defs\") (include \"b.defs\")".toUTF8 =
      "(include \"a.defs\") (include \"b.defs\")" := by
    decide +kernel
  have hforms : Defs.readForms "(include \"a.defs\") (include \"b.defs\")" =
      .ok [⟨1, Defs.includeForm "a.defs"⟩, ⟨1, Defs.includeForm "b.defs"⟩] := by
    with_unfolding_all rfl
  rw [← htext] at hforms
  have hread : tree.readFile ⟨"d/./main.defs"⟩ = .ok (["d", "main.defs"],
      "(include \"a.defs\") (include \"b.defs\")".toUTF8) := by
    decide +kernel
  have hgathers : Gathers tree ⟨"d/."⟩ "main.defs" ["a.defs", "b.defs"] := by
    refine ⟨by decide, by decide +kernel, by decide +kernel, _, _, _, hread, hforms, rfl, ?_⟩
    intro name hname included hleads content hincluded
    refine hkeys included (hleads.mem_of_closed hclosed (hlisted name hname)) ?_
    rw [hincluded]
    rfl
  let record : Defs.Record := ⟨.function, "g", .empty⟩
  have hb (active : List Key) (hkey : ["d", "b.defs"] ∉ active) (path : Path)
      (hread : tree.readFile path = .ok (["d", "b.defs"], "(define-function g)".toUTF8)) :
      Defs.records? tree active path = some [record] := by
    have htext : Text.decodeLenient "(define-function g)".toUTF8 = "(define-function g)" := by
      decide +kernel
    have hforms : Defs.readForms "(define-function g)" =
        .ok [⟨1, .list [.atom "define-function", .atom "g"]⟩] := by
      with_unfolding_all rfl
    rw [← htext] at hforms
    rw [Defs.records?_of_forms hread hkey hforms]
    rfl
  have ha : Defs.records? tree [] ⟨"d/./a.defs"⟩ = some [record] := by
    have hread : ∀ path ∈ ([⟨"d/./a.defs"⟩, ⟨"d/a.defs"⟩] : List Path), tree.readFile path =
        .ok (["d", "a.defs"], "(include \"a.defs\") (include \"b.defs\")".toUTF8) := by
      decide +kernel
    have hself : Defs.records? tree [["d", "a.defs"]]
        ((Path.directory ⟨"d/./a.defs"⟩).join ⟨"a.defs"⟩) = some [] :=
      Defs.records?_of_active (hread ⟨"d/a.defs"⟩ (by decide)) List.mem_cons_self
    have htargets : [⟨1, Defs.includeForm "a.defs"⟩, ⟨1, Defs.includeForm "b.defs"⟩].map
        Defs.TopLevel.form = ["a.defs", "b.defs"].map Defs.includeForm := rfl
    rw [Defs.records?_of_includes (hread _ List.mem_cons_self) hforms htargets, List.mapM_cons,
      List.mapM_cons, hself, hb _ (by decide) _ (by decide +kernel)]
    rfl
  have hbuild : (ModuleSpec.build tree .pygtk .empty
      ⟨"m", [⟨"d/./a.defs"⟩, ⟨"d/./b.defs"⟩]⟩).result.toOption =
        Namespace.empty.defined? .pygtk [record, record] := by
    rw [ModuleSpec.build, Building.toOption_addFiles _ _ (Defs.Cache.sound_empty tree)
      (by decide +kernel), List.mapM_cons, List.mapM_cons, ha,
      hb [] (by decide) _ (by decide +kernel)]
    rfl
  obtain ⟨ns, hns⟩ : ∃ ns, Namespace.empty.defined? .pygtk [record, record] = some ns :=
    ⟨_, rfl⟩
  have hresult := Building.result_eq_ok_iff.mpr (hbuild.trans hns)
  have hiff := ModuleSpec.build_listed_iff_included hgathers .pygtk "m" "n" []
    [.expand ⟨"d/b.defs"⟩] ns
  exact ⟨hgathers, ns, hresult, hiff.mp hresult⟩

end Stubgen
