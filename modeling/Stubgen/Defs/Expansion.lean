import Stubgen.Defs.Cache
import Stubgen.Defs.Directive
import Stubgen.Event

/-!
# Expansion of definition files

The records of a file are those of its definitions, with the records of an included file in
the place of the include. While a file is expanded, an include that leads to it again is
passed over. The files that are being expanded become more with every include, and there
are finitely many files, so an expansion ends.
-/

namespace Stubgen.Defs

open Files (Key Path Tree)

/-- The record of a form at the top of the file that a path leads to, if the form is a
definition. -/
def Record.ofTopLevel (path : Path) (top : TopLevel) : Except Error Record :=
  match Record.ofForm top.form with
  | .ok record => .ok record
  | .error cause => .error (.defs path ⟨top.line, cause⟩)

/-- What comes of expanding a file. -/
structure Expansion where
  /-- The records, or the first error. -/
  result : Except Error (List Record)
  /-- The cache afterwards. -/
  cache : Cache
  /-- What there is to say about the includes. -/
  events : List Event

namespace Expansion

/-- The expansion with records before its own. -/
def after (records : List Record) (expansion : Expansion) : Expansion :=
  { expansion with result := expansion.result.map (records ++ ·) }

/-- The expansion of an included file, followed by that of the rest. -/
def followedBy (inner : Expansion) (records : List Record) (rest : Expansion) : Expansion :=
  { rest.after records with events := inner.events ++ rest.events }

end Expansion

mutual

/-- Expands the file that a path leads to, while the files `active` are being expanded. -/
def expandFile (tree : Tree) (active : List Key) (cache : Cache) (path : Path) : Expansion :=
  match _hread : tree.readFile path with
  | .error e => ⟨.error (.os e), cache, []⟩
  | .ok (key, _) =>
    if _hkey : key ∈ active then ⟨.ok [], cache, [.cyclicInclude path]⟩
    else
      match cache.load tree path with
      | (.error e, cache) => ⟨.error e, cache, []⟩
      | (.ok forms, cache) =>
        expandDirectives tree (key :: active) path cache (Directive.ofTopLevels forms)
termination_by (tree.outside active, 0)
decreasing_by
  exact Prod.Lex.left _ _ (Tree.outside_cons_lt _hread _hkey)

/-- Follows the directives of the file that a path leads to. -/
def expandDirectives (tree : Tree) (active : List Key) (path : Path) (cache : Cache)
    (directives : List (Nat × Directive)) : Expansion :=
  match directives with
  | [] => ⟨.ok [], cache, []⟩
  | (line, .fault cause) :: _ => ⟨.error (.defs path ⟨line, cause⟩), cache, []⟩
  | (_, .define record) :: rest =>
    (expandDirectives tree active path cache rest).after [record]
  | (_, .include target) :: rest =>
    let inner := expandFile tree active cache (path.directory.join ⟨target⟩)
    match inner.result with
    | .error _ => inner
    | .ok records =>
      inner.followedBy records (expandDirectives tree active path inner.cache rest)
termination_by (tree.outside active, directives.length)
decreasing_by
  all_goals
    apply Prod.Lex.right
    simp

end

section

variable {tree : Tree} {active : List Key} {cache next : Cache} {path : Path} {key : Key}
  {content : ByteArray}

/-- A file that cannot be read is not expanded. -/
theorem expandFile_of_unreadable {e : Files.OsError} (hread : tree.readFile path = .error e) :
    expandFile tree active cache path = ⟨.error (.os e), cache, []⟩ := by
  unfold expandFile
  split
  · next e' h =>
    obtain rfl : e' = e := by simpa [hread] using h.symm
    rfl
  · next h => simp [hread] at h

private theorem expandFile_of_readable (hread : tree.readFile path = .ok (key, content)) :
    expandFile tree active cache path =
      if key ∈ active then ⟨.ok [], cache, [.cyclicInclude path]⟩
      else
        match cache.load tree path with
        | (.error e, cache) => ⟨.error e, cache, []⟩
        | (.ok forms, cache) =>
          expandDirectives tree (key :: active) path cache (Directive.ofTopLevels forms) := by
  unfold expandFile
  split
  · next h => simp [hread] at h
  · next h =>
    obtain ⟨rfl, rfl⟩ : _ ∧ _ := by simpa [hread] using h
    rfl

/-- A file that is being expanded is passed over. -/
theorem expandFile_of_active (hread : tree.readFile path = .ok (key, content))
    (hkey : key ∈ active) :
    expandFile tree active cache path = ⟨.ok [], cache, [.cyclicInclude path]⟩ := by
  rw [expandFile_of_readable hread, if_pos hkey]

/-- A file whose text is refused is not expanded. -/
theorem expandFile_of_fault (hread : tree.readFile path = .ok (key, content))
    (hkey : key ∉ active) {e : Error} (hload : cache.load tree path = (.error e, next)) :
    expandFile tree active cache path = ⟨.error e, next, []⟩ := by
  rw [expandFile_of_readable hread, if_neg hkey, hload]

/-- Any other file is expanded by following its directives. -/
theorem expandFile_of_forms (hread : tree.readFile path = .ok (key, content))
    (hkey : key ∉ active) {forms : List TopLevel}
    (hload : cache.load tree path = (.ok forms, next)) :
    expandFile tree active cache path =
      expandDirectives tree (key :: active) path next (Directive.ofTopLevels forms) := by
  rw [expandFile_of_readable hread, if_neg hkey, hload]

/-- An include of a file that cannot be expanded ends the expansion. -/
theorem expandDirectives_of_failed {line : Nat} {target : String}
    {rest : List (Nat × Directive)} {e : Error}
    (hresult : (expandFile tree active cache (path.directory.join ⟨target⟩)).result = .error e) :
    expandDirectives tree active path cache ((line, .include target) :: rest) =
      expandFile tree active cache (path.directory.join ⟨target⟩) := by
  rw [expandDirectives]
  simp only [hresult]

/-- Any other include stands for the records of the included file. -/
theorem expandDirectives_of_included {line : Nat} {target : String}
    {rest : List (Nat × Directive)} {records : List Record}
    (hresult : (expandFile tree active cache (path.directory.join ⟨target⟩)).result =
      .ok records) :
    expandDirectives tree active path cache ((line, .include target) :: rest) =
      let inner := expandFile tree active cache (path.directory.join ⟨target⟩)
      inner.followedBy records (expandDirectives tree active path inner.cache rest) := by
  rw [expandDirectives]
  simp only [hresult]

end

/-- Expands the file that a path leads to. -/
def expand (tree : Tree) (cache : Cache) (path : Path) : Expansion :=
  expandFile tree [] cache path

end Stubgen.Defs
