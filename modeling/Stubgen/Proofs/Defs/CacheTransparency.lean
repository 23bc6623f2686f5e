import Stubgen.Defs.Expansion
import Mathlib.Data.List.Induction
import Mathlib.Data.List.Nodup

/-!
# Transparency of the cache

The cache of definition files only saves work. A cache is sound if it holds every file at
most once, has read as often as it holds files, and holds for each what reading the file
gives. Every use of a sound cache leaves a sound one, whether or not it ends in an error, and
an expansion has the same outcome with every sound cache.
-/

namespace Stubgen.Defs

open Files (Key Path Tree)

namespace Cache

/-- The cache holds every file at most once, has read as often as it holds files, and holds
for each the forms that reading it gives. -/
structure Sound (tree : Tree) (cache : Cache) : Prop where
  held_once : (cache.files.map Prod.fst).Nodup
  read_once : cache.reads = cache.files.length
  faithful : ∀ key forms, (key, forms) ∈ cache.files → ∃ content,
    tree.node? key = some (.file content) ∧ readForms (Text.decodeLenient content) = .ok forms

/-- The empty cache is sound. -/
theorem sound_empty (tree : Tree) : empty.Sound tree :=
  ⟨.nil, rfl, by simp [empty]⟩

/-- Forms that are found under a key are held under it. -/
private theorem mem_of_findForms {key : Key} {forms : List TopLevel}
    {files : List (Key × List TopLevel)} (h : findForms key files = some forms) :
    (key, forms) ∈ files := by
  induction files with
  | nil => simp [findForms] at h
  | cons entry rest ih =>
    unfold findForms at h
    split at h
    · next heq =>
      obtain rfl := Option.some.inj h
      exact List.mem_cons.mpr (.inl (by rw [heq]))
    · exact List.mem_cons_of_mem _ (ih h)

/-- A key under which nothing is found is no key of a held file. -/
private theorem not_mem_of_findForms {key : Key} {files : List (Key × List TopLevel)}
    (h : findForms key files = none) : key ∉ files.map Prod.fst := by
  induction files with
  | nil => simp
  | cons entry rest ih =>
    unfold findForms at h
    split at h
    · exact nomatch h
    · next hne =>
      rw [List.map_cons, List.mem_cons, not_or]
      exact ⟨hne, ih h⟩

variable {tree : Tree} {cache : Cache} {path : Path} {key : Key} {content : ByteArray}

/-! ## What loading does -/

/-- A file that cannot be read leaves the cache as it is. -/
theorem load_of_unreadable (cache : Cache) {e : Files.OsError}
    (hread : tree.readFile path = .error e) : cache.load tree path = (.error (.os e), cache) := by
  rw [load, hread]

/-- A file that the cache holds is not read again. -/
theorem load_of_cached (hread : tree.readFile path = .ok (key, content))
    {forms : List TopLevel} (hcached : cache.get? key = some forms) :
    cache.load tree path = (.ok forms, cache) := by
  simp only [load, hread, hcached]

/-- A file whose text is refused is not held. -/
theorem load_of_fault (hread : tree.readFile path = .ok (key, content))
    (hnew : cache.get? key = none) {fault : Fault}
    (hforms : readForms (Text.decodeLenient content) = .error fault) :
    cache.load tree path = (.error (.defs path fault), cache) := by
  simp only [load, hread, hnew, hforms]

/-- A file whose text is read for the first time is held from then on. -/
theorem load_of_forms (hread : tree.readFile path = .ok (key, content))
    (hnew : cache.get? key = none) {forms : List TopLevel}
    (hforms : readForms (Text.decodeLenient content) = .ok forms) :
    cache.load tree path = (.ok forms, ⟨(key, forms) :: cache.files, cache.reads + 1⟩) := by
  simp only [load, hread, hnew, hforms]

/-- What a sound cache holds for a file is what reading the file gives. -/
theorem Sound.readForms_eq (h : cache.Sound tree) (hread : tree.readFile path = .ok (key, content))
    {forms : List TopLevel} (hcached : cache.get? key = some forms) :
    readForms (Text.decodeLenient content) = .ok forms := by
  obtain ⟨content', hnode, hforms⟩ := h.faithful key forms (mem_of_findForms hcached)
  have hfile := Tree.node?_of_readFile hread
  rw [hnode] at hfile
  obtain rfl : content' = content := by simpa using hfile
  exact hforms

/-- A file that is read for the first time joins a sound cache. -/
theorem Sound.add (h : cache.Sound tree) (hread : tree.readFile path = .ok (key, content))
    (hnew : cache.get? key = none) {forms : List TopLevel}
    (hforms : readForms (Text.decodeLenient content) = .ok forms) :
    Sound tree ⟨(key, forms) :: cache.files, cache.reads + 1⟩ where
  held_once := List.nodup_cons.mpr ⟨not_mem_of_findForms hnew, h.held_once⟩
  read_once := by simp only [List.length_cons, h.read_once]
  faithful := by
    intro other forms' hmem
    rcases List.mem_cons.mp hmem with heq | hmem
    · obtain ⟨rfl, rfl⟩ := Prod.mk.inj heq
      exact ⟨content, Tree.node?_of_readFile hread, hforms⟩
    · exact h.faithful other forms' hmem

/-- Loading keeps a cache sound. -/
theorem Sound.load (h : cache.Sound tree) (path : Path) : (cache.load tree path).2.Sound tree := by
  cases hread : tree.readFile path with
  | error e =>
    rw [load_of_unreadable cache hread]
    exact h
  | ok found =>
    obtain ⟨key, content⟩ := found
    cases hcached : cache.get? key with
    | some forms =>
      rw [load_of_cached hread hcached]
      exact h
    | none =>
      cases hforms : readForms (Text.decodeLenient content) with
      | error fault =>
        rw [load_of_fault hread hcached hforms]
        exact h
      | ok forms =>
        rw [load_of_forms hread hcached hforms]
        exact h.add hread hcached hforms

/-- Loading gives the same with a sound cache as with none. -/
theorem Sound.load_fst (h : cache.Sound tree) (path : Path) :
    (cache.load tree path).1 = (empty.load tree path).1 := by
  cases hread : tree.readFile path with
  | error e => rw [load_of_unreadable cache hread, load_of_unreadable empty hread]
  | ok found =>
    obtain ⟨key, content⟩ := found
    have hempty : empty.get? key = none := rfl
    cases hcached : cache.get? key with
    | some forms =>
      have hforms := h.readForms_eq hread hcached
      rw [load_of_cached hread hcached, load_of_forms hread hempty hforms]
    | none =>
      cases hforms : readForms (Text.decodeLenient content) with
      | error fault => rw [load_of_fault hread hcached hforms, load_of_fault hread hempty hforms]
      | ok forms => rw [load_of_forms hread hcached hforms, load_of_forms hread hempty hforms]

/-- Two sound caches load the same, and both are left sound. -/
theorem Sound.load_alike {other next : Cache} (h : cache.Sound tree) (hother : other.Sound tree)
    {loaded : Except Error (List TopLevel)} (hload : cache.load tree path = (loaded, next)) :
    next.Sound tree ∧ ∃ otherNext, other.load tree path = (loaded, otherNext) ∧
      otherNext.Sound tree := by
  have hnext := h.load path
  have hloaded := (hother.load_fst path).trans (h.load_fst path).symm
  rw [hload] at hnext hloaded
  exact ⟨hnext, (other.load tree path).2, Prod.ext hloaded rfl, hother.load path⟩

end Cache

/-! ## What expanding does -/

/-- Two expansions end alike: with the same records or the same error, with the same events,
and both with sound caches. -/
structure Expansion.Alike (tree : Tree) (a b : Expansion) : Prop where
  result : a.result = b.result
  events : a.events = b.events
  sound_left : a.cache.Sound tree
  sound_right : b.cache.Sound tree

variable {tree : Tree} {a b : Expansion}

/-- Expansions that end alike still do so with the same records before their own. -/
theorem Expansion.Alike.after (h : a.Alike tree b) (records : List Record) :
    (a.after records).Alike tree (b.after records) :=
  ⟨congrArg (Except.map (records ++ ·)) h.result, h.events, h.sound_left, h.sound_right⟩

/-- Includes that end alike, followed by rests that end alike. -/
theorem Expansion.Alike.followedBy {rest rest' : Expansion} (h : a.Alike tree b)
    (hrest : rest.Alike tree rest') (records : List Record) :
    (a.followedBy records rest).Alike tree (b.followedBy records rest') where
  result := (hrest.after records).result
  events := congrArg₂ (· ++ ·) h.events hrest.events
  sound_left := hrest.sound_left
  sound_right := hrest.sound_right

/-- With sound caches, expansions of one file end alike, and so do those of the same
directives. -/
theorem expandFile_alike (tree : Tree) :
    (∀ active cache path, cache.Sound tree → ∀ other, other.Sound tree →
      (expandFile tree active cache path).Alike tree (expandFile tree active other path)) ∧
    ∀ active path cache directives, cache.Sound tree → ∀ other, other.Sound tree →
      (expandDirectives tree active path cache directives).Alike tree
        (expandDirectives tree active path other directives) := by
  -- The induction follows the run with the first cache. The other cache is arbitrary in every
  -- case, because after an include it is no longer the one that the run began with.
  refine expandFile.mutual_induct tree
    (fun active cache path => cache.Sound tree → ∀ other, other.Sound tree →
      (expandFile tree active cache path).Alike tree (expandFile tree active other path))
    (fun active path cache directives => cache.Sound tree → ∀ other, other.Sound tree →
      (expandDirectives tree active path cache directives).Alike tree
        (expandDirectives tree active path other directives))
    ?unreadable ?active ?refused ?loaded ?nil ?fault ?define ?failed ?included
  case unreadable =>
    intro active cache path e hread h other hother
    rw [expandFile_of_unreadable hread, expandFile_of_unreadable hread]
    exact ⟨rfl, rfl, h, hother⟩
  case active =>
    intro active cache path key content hread hkey h other hother
    rw [expandFile_of_active hread hkey, expandFile_of_active hread hkey]
    exact ⟨rfl, rfl, h, hother⟩
  case refused =>
    intro active cache path key content hread hkey e next hload h other hother
    obtain ⟨hnext, otherNext, hotherLoad, hotherNext⟩ := h.load_alike hother hload
    rw [expandFile_of_fault hread hkey hload, expandFile_of_fault hread hkey hotherLoad]
    exact ⟨rfl, rfl, hnext, hotherNext⟩
  case loaded =>
    intro active cache path key content hread hkey forms next hload ih h other hother
    obtain ⟨hnext, otherNext, hotherLoad, hotherNext⟩ := h.load_alike hother hload
    rw [expandFile_of_forms hread hkey hload, expandFile_of_forms hread hkey hotherLoad]
    exact ih hnext otherNext hotherNext
  case nil =>
    intro active path cache h other hother
    simp only [expandDirectives]
    exact ⟨rfl, rfl, h, hother⟩
  case fault =>
    intro active path cache line cause rest h other hother
    simp only [expandDirectives]
    exact ⟨rfl, rfl, h, hother⟩
  case define =>
    intro active path cache line record rest ih h other hother
    simp only [expandDirectives]
    exact (ih h other hother).after [record]
  case failed =>
    intro active path cache line target rest inner e hresult ih h other hother
    have hinner := ih h other hother
    rw [expandDirectives_of_failed hresult,
      expandDirectives_of_failed (hinner.result.symm.trans hresult)]
    exact hinner
  case included =>
    intro active path cache line target rest inner records hresult ihInner ihRest h other hother
    have hinner := ihInner h other hother
    have hrest := ihRest hinner.sound_left _ hinner.sound_right
    rw [expandDirectives_of_included hresult,
      expandDirectives_of_included (hinner.result.symm.trans hresult)]
    exact hinner.followedBy hrest records

/-! ## Runs of uses -/

namespace Cache

/-- A use of a cache: a file is loaded, or expanded with everything that it includes. -/
inductive Use where
  | load (path : Path)
  | expand (path : Path)

/-- The cache after a use. -/
def after (tree : Tree) (cache : Cache) : Use → Cache
  | .load path => (cache.load tree path).2
  | .expand path => (Defs.expand tree cache path).cache

/-- The cache that uses make of an empty one. -/
def ofUses (tree : Tree) (uses : List Use) : Cache :=
  uses.foldl (after tree) empty

/-- Every use keeps a cache sound, also one that ends in an error. -/
theorem Sound.after {cache : Cache} (h : cache.Sound tree) (use : Use) :
    (cache.after tree use).Sound tree := by
  cases use with
  | load path => exact h.load path
  | expand path => exact ((expandFile_alike tree).1 [] cache path h cache h).sound_left

/-- A cache that has been used in any way is sound. -/
theorem sound_ofUses (tree : Tree) (uses : List Use) : (ofUses tree uses).Sound tree := by
  induction uses using List.reverseRecOn with
  | nil => exact sound_empty tree
  | append_singleton uses use ih =>
    rw [ofUses, List.foldl_append]
    exact ih.after use

end Cache

/-- Whatever a cache has been used for, also by runs that ended in an error, an expansion with
it gives the same records or the same error as with an empty cache, and says the same about
the includes. The cache has read as often as it holds files, and it holds each file once,
with what reading it gives. -/
theorem expand_of_used_cache (tree : Tree) (uses : List Cache.Use) (path : Path) :
    let cache := Cache.ofUses tree uses
    (expand tree cache path).result = (expand tree .empty path).result ∧
      (expand tree cache path).events = (expand tree .empty path).events ∧
      cache.reads = cache.files.length ∧
      (cache.files.map Prod.fst).Nodup ∧
      ∀ key forms, (key, forms) ∈ cache.files → ∃ content,
        tree.node? key = some (.file content) ∧
          readForms (Text.decodeLenient content) = .ok forms := by
  have h := Cache.sound_ofUses tree uses
  have halike := (expandFile_alike tree).1 [] (Cache.ofUses tree uses) path h .empty
    (Cache.sound_empty tree)
  exact ⟨halike.result, halike.events, h.read_once, h.held_once, h.faithful⟩

end Stubgen.Defs
