import Stubgen.Proofs.Module.Inputs

/-!
# Included files

What an include gives does not depend on the place where it stands. Files that are being expanded
matter only if the included file leads back to them, and a file gives the same records under
another path that reads the same and tells the same directory. A file that consists of includes
therefore gives what the included files give, one after the other.
-/

namespace Stubgen.Defs

open Files (Key Path Tree)

/-- A file that is read from a path on is being expanded in one case exactly if it is in the
other. -/
def ActiveAlike (tree : Tree) (active other : List Key) (path : Path) : Prop :=
  ∀ included, LeadsTo (includedPaths tree) path included →
    ∀ key content, tree.readFile included = .ok (key, content) → (key ∈ other ↔ key ∈ active)

/-- The records of a file, while other files are being expanded; nothing if there is an error. -/
def records? (tree : Tree) (active : List Key) (path : Path) : Option (List Record) :=
  (expandFile tree active .empty path).result.toOption

/-- The records of a directive in a file of the directory, while other files are being expanded;
nothing if there is an error. -/
def directiveRecords? (tree : Tree) (active : List Key) (directory : Path) :
    Directive → Option (List Record)
  | .include target => records? tree active (directory.join ⟨target⟩)
  | .define record => some [record]
  | .fault _ => none

/-- The form of an include. -/
def includeForm (target : String) : Form :=
  .list [.atom "include", .str target]

variable {tree : Tree} {active other : List Key} {path : Path}

/-! ## Files that are being expanded -/

/-- What is included is reached with what it includes. -/
theorem ActiveAlike.of_included (h : ActiveAlike tree active other path) {included : Path}
    (hincluded : included ∈ includedPaths tree path) : ActiveAlike tree active other included :=
  fun _ hleads => h _ (.head hincluded hleads)

/-- One more file may be expanded in both cases. -/
theorem ActiveAlike.cons (h : ActiveAlike tree active other path) (key : Key) :
    ActiveAlike tree (key :: active) (key :: other) path := by
  intro included hleads found content hread
  rw [List.mem_cons, List.mem_cons, h included hleads found content hread]

/-- With a sound cache, a file is expanded in the same way whichever other files are being
expanded, as long as none of them is read from this file on. -/
theorem expandFile_activeAlike (tree : Tree) :
    (∀ active cache path, cache.Sound tree → ∀ other, ActiveAlike tree active other path →
      expandFile tree other cache path = expandFile tree active cache path) ∧
    ∀ active path cache directives, cache.Sound tree → ∀ other,
      (∀ line target, (line, .include target) ∈ directives →
        ActiveAlike tree active other (path.directory.join ⟨target⟩)) →
      expandDirectives tree other path cache directives =
        expandDirectives tree active path cache directives := by
  -- The induction follows the run with the first list. The two lists are extended by the same
  -- file, so they go on to hold the same of the files that can still be read.
  refine expandFile.mutual_induct tree
    (fun active cache path => cache.Sound tree → ∀ other, ActiveAlike tree active other path →
      expandFile tree other cache path = expandFile tree active cache path)
    (fun active path cache directives => cache.Sound tree → ∀ other,
      (∀ line target, (line, .include target) ∈ directives →
        ActiveAlike tree active other (path.directory.join ⟨target⟩)) →
      expandDirectives tree other path cache directives =
        expandDirectives tree active path cache directives)
    ?unreadable ?active ?refused ?loaded ?nil ?fault ?define ?failed ?included
  case unreadable =>
    intro active cache path e hread h other halike
    rw [expandFile_of_unreadable hread, expandFile_of_unreadable hread]
  case active =>
    intro active cache path key content hread hkey h other halike
    have hkey' := (halike path .refl key content hread).mpr hkey
    rw [expandFile_of_active hread hkey, expandFile_of_active hread hkey']
  case refused =>
    intro active cache path key content hread hkey e next hload h other halike
    have hkey' := (halike path .refl key content hread).not.mpr hkey
    rw [expandFile_of_fault hread hkey hload, expandFile_of_fault hread hkey' hload]
  case loaded =>
    intro active cache path key content hread hkey forms next hload ih h other halike
    have hkey' := (halike path .refl key content hread).not.mpr hkey
    have hnext : next.Sound tree := by
      have hsound := h.load path
      rwa [hload] at hsound
    rw [expandFile_of_forms hread hkey hload, expandFile_of_forms hread hkey' hload]
    refine ih hnext (key :: other) fun line target hmem => (halike.of_included ?_).cons key
    exact mem_includedPaths hread (h.exists_readForms hread hload) hmem
  case nil =>
    intro active path cache h other halike
    simp only [expandDirectives]
  case fault =>
    intro active path cache line cause rest h other halike
    simp only [expandDirectives]
  case define =>
    intro active path cache line record rest ih h other halike
    simp only [expandDirectives]
    rw [ih h other fun line' target hmem => halike line' target (List.mem_cons_of_mem _ hmem)]
  case failed =>
    intro active path cache line target rest inner e hresult ih h other halike
    have hinner := ih h other (halike line target List.mem_cons_self)
    have hresult' := (congrArg Expansion.result hinner).trans hresult
    rw [expandDirectives_of_failed hresult, expandDirectives_of_failed hresult', hinner]
  case included =>
    intro active path cache line target rest inner records hresult ihInner ihRest h other halike
    have hinner := ihInner h other (halike line target List.mem_cons_self)
    have hsound : inner.cache.Sound tree :=
      ((expandFile_alike tree).1 active cache _ h cache h).sound_left
    have hrest := ihRest hsound other fun line' target' hmem =>
      halike line' target' (List.mem_cons_of_mem _ hmem)
    have hresult' := (congrArg Expansion.result hinner).trans hresult
    rw [expandDirectives_of_included hresult, expandDirectives_of_included hresult', hinner]
    exact congrArg (inner.followedBy records) hrest

/-- A file gives the same records whichever other files are being expanded, as long as none of
them is read from this file on. -/
theorem records?_activeAlike (h : ActiveAlike tree active other path) :
    records? tree other path = records? tree active path := by
  rw [records?, records?, (expandFile_activeAlike tree).1 active .empty path
    (Cache.sound_empty tree) other h]

/-! ## Records of directives -/

/-- Records that come before those of an expansion. -/
theorem Expansion.toOption_after (expansion : Expansion) (records : List Record) :
    (expansion.after records).result.toOption =
      expansion.result.toOption.map (records ++ ·) := by
  unfold after
  cases expansion.result <;> rfl

/-- A file gives the same records with every sound cache. -/
theorem toOption_expandFile_of_sound {cache : Cache} (h : cache.Sound tree) (active : List Key)
    (path : Path) :
    (expandFile tree active cache path).result.toOption = records? tree active path := by
  have halike := (expandFile_alike tree).1 active cache path h .empty (Cache.sound_empty tree)
  rw [halike.result, records?]

/-- The first of several directives gives its records, and then the others give theirs. -/
theorem toOption_expandDirectives_cons {cache : Cache} (h : cache.Sound tree)
    (entry : Nat × Directive) (rest : List (Nat × Directive)) : ∃ next : Cache, next.Sound tree ∧
      (expandDirectives tree active path cache (entry :: rest)).result.toOption =
        (directiveRecords? tree active path.directory entry.2).bind fun records =>
          (expandDirectives tree active path next rest).result.toOption.map (records ++ ·) := by
  obtain ⟨line, target | record | cause⟩ := entry
  · have hsound := ((expandFile_alike tree).1 active cache (path.directory.join ⟨target⟩) h cache
      h).sound_left
    refine ⟨_, hsound, ?_⟩
    rw [directiveRecords?, ← toOption_expandFile_of_sound h]
    cases hresult : (expandFile tree active cache (path.directory.join ⟨target⟩)).result with
    | error e =>
      rw [expandDirectives_of_failed hresult, hresult]
      rfl
    | ok records =>
      rw [expandDirectives_of_included hresult]
      exact Expansion.toOption_after _ records
  · refine ⟨cache, h, ?_⟩
    simp only [expandDirectives, Expansion.toOption_after, directiveRecords?, Option.bind_some]
  · refine ⟨cache, h, ?_⟩
    simp only [expandDirectives]
    rfl

/-- Directives give their records one after the other. -/
theorem toOption_expandDirectives {cache : Cache} (h : cache.Sound tree)
    (directives : List (Nat × Directive)) :
    (expandDirectives tree active path cache directives).result.toOption =
      ((directives.map Prod.snd).mapM (directiveRecords? tree active path.directory)).map
        List.flatten := by
  induction directives generalizing cache with
  | nil =>
    simp only [expandDirectives]
    rfl
  | cons entry rest ih =>
    obtain ⟨next, hnext, hcons⟩ := toOption_expandDirectives_cons h entry rest
    rw [hcons, ih hnext, List.map_cons, List.mapM_cons]
    cases directiveRecords? tree active path.directory entry.2 with
    | none => rfl
    | some records =>
      cases (rest.map Prod.snd).mapM (directiveRecords? tree active path.directory) <;> rfl

/-! ## Records of files -/

variable {key : Key} {content : ByteArray}

/-- A file that cannot be read gives no records. -/
theorem records?_of_unreadable {e : Files.OsError} (hread : tree.readFile path = .error e) :
    records? tree active path = none := by
  rw [records?, expandFile_of_unreadable hread]
  rfl

/-- A file that is being expanded adds no record. -/
theorem records?_of_active (hread : tree.readFile path = .ok (key, content))
    (hkey : key ∈ active) : records? tree active path = some [] := by
  rw [records?, expandFile_of_active hread hkey]
  rfl

/-- A file whose text is refused gives no records. -/
theorem records?_of_fault (hread : tree.readFile path = .ok (key, content)) (hkey : key ∉ active)
    {fault : Fault} (hforms : readForms (Text.decodeLenient content) = .error fault) :
    records? tree active path = none := by
  rw [records?, expandFile_of_fault hread hkey (Cache.load_of_fault hread rfl hforms)]
  rfl

/-- Any other file gives the records of its directives. -/
theorem records?_of_forms (hread : tree.readFile path = .ok (key, content)) (hkey : key ∉ active)
    {forms : List TopLevel} (hforms : readForms (Text.decodeLenient content) = .ok forms) :
    records? tree active path =
      (((Directive.ofTopLevels forms).map Prod.snd).mapM
        (directiveRecords? tree (key :: active) path.directory)).map List.flatten := by
  have hsound : Cache.Sound tree _ := (Cache.sound_empty tree).add hread rfl hforms
  rw [records?, expandFile_of_forms hread hkey (Cache.load_of_forms hread rfl hforms)]
  exact toOption_expandDirectives hsound _

/-- A file gives the same records under another path that reads the same and tells the same
directory. -/
theorem records?_respelled {path' : Path} (hread : tree.readFile path' = tree.readFile path)
    (hdirectory : path'.directory = path.directory) (active : List Key) :
    records? tree active path' = records? tree active path := by
  cases hpath : tree.readFile path with
  | error e => rw [records?_of_unreadable hpath, records?_of_unreadable (hread.trans hpath)]
  | ok found =>
    obtain ⟨key, content⟩ := found
    have hpath' := hread.trans hpath
    by_cases hkey : key ∈ active
    · rw [records?_of_active hpath hkey, records?_of_active hpath' hkey]
    · cases hforms : readForms (Text.decodeLenient content) with
      | error fault =>
        rw [records?_of_fault hpath hkey hforms, records?_of_fault hpath' hkey hforms]
      | ok forms =>
        rw [records?_of_forms hpath hkey hforms, records?_of_forms hpath' hkey hforms, hdirectory]

/-- Forms that include files ask for nothing else. -/
theorem directives_of_includeForms {forms : List TopLevel} {targets : List String}
    (h : forms.map TopLevel.form = targets.map includeForm) :
    (Directive.ofTopLevels forms).map Prod.snd = targets.map .include := by
  induction forms generalizing targets with
  | nil =>
    obtain rfl := List.map_eq_nil_iff.mp h.symm
    rfl
  | cons top rest ih =>
    obtain ⟨target, targets, rfl, htop, hrest⟩ := List.map_eq_cons_iff.mp h.symm
    have hform : Directive.ofForm top.form = [.include target] := by
      rw [← htop]
      rfl
    have hrest' := ih hrest.symm
    unfold Directive.ofTopLevels at hrest' ⊢
    rw [List.flatMap_cons, List.map_append, hrest', hform]
    rfl

/-- A file that consists of includes gives what the included files give, one after the other, while
it is being expanded. -/
theorem records?_of_includes (hread : tree.readFile path = .ok (key, content))
    {forms : List TopLevel} (hforms : readForms (Text.decodeLenient content) = .ok forms)
    {targets : List String} (htargets : forms.map TopLevel.form = targets.map includeForm) :
    records? tree [] path =
      (targets.mapM fun target => records? tree [key] (path.directory.join ⟨target⟩)).map
        List.flatten := by
  rw [records?_of_forms hread List.not_mem_nil hforms, directives_of_includeForms htargets,
    List.mapM_map]
  rfl

end Stubgen.Defs
