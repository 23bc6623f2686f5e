import Mathlib.Data.List.DropRight
import Mathlib.Data.List.Infix
import Stubgen.Proofs.Wrapper.Backtracking

/-!
# Assignments to longer names

An assignment to a name is looked for as plain text: the name, then an equals sign between blanks.
The blank ends the name on its right, but nothing is asked on its left. So an assignment to a longer
name that ends in the name is followed like one to the name itself, and whichever of them comes last
decides what the name stands for.
-/

namespace Stubgen.Wrapper

open Text (OccursAfter byteLength takeBytes)

variable {code name before front value result : List Char} {offset : Nat}

/-- A letter, a digit or an underscore. -/
def isNameChar (c : Char) : Bool :=
  c.isAlphanum || c = '_'

/-- The name of a variable. -/
structure IsIdentifier (name : List Char) : Prop where
  nonempty : name ≠ []
  chars : name.all isNameChar = true
  first : name.head?.any Char.isDigit = false

/-- Whether what follows the text goes on with a name. -/
def endsInName (text : List Char) : Bool :=
  text.getLast?.any isNameChar

/-- The last assignment before a byte position that is taken for one to the name: `front ++ name` is
assigned `value` after `before`. It is one to the name itself if `front` is empty. -/
structure IsFoundIn (code name : List Char) (offset : Nat) (before front value : List Char) :
    Prop where
  assigned : OccursAfter (assignmentTo (front ++ name)) code before
  inside : front.all isNameChar = true
  whole : endsInName before = false
  last : IsLastAssigned code name offset (byteLength (before ++ front))
  value : IsValueAt code (byteLength (before ++ assignmentTo (front ++ name))) value

/-! ## Names -/

/-- No character of a name is blank. -/
theorem isBlank_of_isNameChar {c : Char} (h : isNameChar c = true) : Text.isBlank c = false := by
  have hpoints : ∀ point ∈ Text.blankPoints, isNameChar (Char.ofNat point) = false := by decide
  by_contra hblank
  have hmem : c.toNat ∈ Text.blankPoints := by simpa [Text.isBlank] using hblank
  have hname := hpoints _ hmem
  rw [Char.ofNat_toNat, h] at hname
  exact nomatch hname

/-- Trimming leaves a name as it is. -/
theorem trim_name (h : name.all isNameChar = true) : Text.trim name = name := by
  have hdrop {text : List Char} (htext : text.all isNameChar = true) :
      text.dropWhile Text.isBlank = text := by
    cases text with
    | nil => rfl
    | cons c cs =>
      have hblank := isBlank_of_isNameChar (List.all_eq_true.mp htext c List.mem_cons_self)
      exact List.dropWhile_cons_of_neg (by simp [hblank])
  unfold Text.trim Text.trimEnd Text.trimStart
  rw [hdrop h, hdrop (by rwa [List.all_reverse]), List.reverse_reverse]

/-- An identifier other than the name of the empty result is not resolved. -/
theorem IsIdentifier.not_isResolved (h : IsIdentifier name) (hname : name ≠ emptyResult) :
    ¬IsResolved name := by
  rintro (hcall | hempty)
  · exact absurd (List.all_eq_true.mp h.chars _ hcall) (by decide)
  · exact hname hempty

/-- Every text ends in characters of a name, maybe none, behind a text that does not end in one. -/
theorem exists_not_endsInName (text : List Char) :
    ∃ before front, text = before ++ front ∧ front.all isNameChar = true ∧
      endsInName before = false := by
  refine ⟨text.rdropWhile isNameChar, text.rtakeWhile isNameChar,
    List.rdropWhile_append_rtakeWhile.symm,
    List.all_eq_true.mpr fun c => List.mem_rtakeWhile_imp, ?_⟩
  by_cases hnil : text.rdropWhile isNameChar = []
  · rw [hnil]
    rfl
  · have hlast := List.rdropWhile_last_not isNameChar text hnil
    rw [endsInName, List.getLast?_eq_some_getLast hnil]
    simpa using hlast

/-! ## What a name stands for -/

/-- What an expression stands for is told by the value of its last assignment. -/
theorem resolve?_eq_some_iff {expr : List Char} (htrim : Text.trim expr = expr)
    (hopen : ¬IsResolved expr) (hsome : expr ≠ []) :
    resolve? code expr offset = some result ↔
      ∃ start value, IsLastAssigned code expr offset start ∧
        IsValueAt code (start + byteLength (assignmentTo expr)) value ∧
        resolve? code value (start - 1) = some result := by
  unfold resolve?
  rw [htrim, resolveWithin_eq_some_iff hopen hsome]
  simp only [Text.takeBytes_roundDown]

/-- What an identifier stands for is told by the last assignment in which it is found, whether this
is one to the identifier itself or to a longer name that ends in it. -/
theorem resolve?_identifier_eq_some_iff (hidentifier : IsIdentifier name)
    (hname : name ≠ emptyResult) :
    resolve? code name offset = some result ↔
      ∃ before front value, IsFoundIn code name offset before front value ∧
        resolve? code value (byteLength (before ++ front) - 1) = some result := by
  rw [resolve?_eq_some_iff (trim_name hidentifier.chars) (hidentifier.not_isResolved hname)
    hidentifier.nonempty]
  have hends (before front : List Char) : byteLength (before ++ assignmentTo (front ++ name)) =
      byteLength (before ++ front) + byteLength (assignmentTo name) := by
    simp [assignmentTo, Nat.add_assoc]
  constructor
  · rintro ⟨start, value, hlast, hvalue, hresult⟩
    obtain ⟨text, hoccurs, rfl⟩ := hlast.occurs
    obtain ⟨before, front, rfl, hinside, hwhole⟩ := exists_not_endsInName text
    refine ⟨before, front, value, ⟨?_, hinside, hwhole, hlast, ?_⟩, hresult⟩
    · simpa [OccursAfter, assignmentTo] using hoccurs
    · rwa [hends]
  · rintro ⟨before, front, value, hfound, hresult⟩
    have hvalue := hfound.value
    rw [hends] at hvalue
    exact ⟨_, value, hfound.last, hvalue, hresult⟩

/-- A name that is found as all of a name is assigned itself before the position. -/
theorem IsFoundIn.occursAfter_of_nil (h : IsFoundIn code name offset before [] value) :
    OccursAfter (assignmentTo name) (takeBytes offset code) before := by
  have hends := h.last.ends_le
  rw [List.append_nil, ← Text.byteLength_append] at hends
  exact Text.prefix_takeBytes_iff.mpr ⟨h.assigned, hends⟩

/-- The last assignment before a byte position to a name that is an identifier or ends in it tells
what the identifier stands for. If the identifier itself is assigned nowhere before the position,
then it stands for nothing or for what a longer name was assigned. -/
theorem resolve?_identifier (hidentifier : IsIdentifier name) (hname : name ≠ emptyResult) :
    (∀ result, resolve? code name offset = some result ↔
      ∃ before front value, IsFoundIn code name offset before front value ∧
        resolve? code value (byteLength (before ++ front) - 1) = some result) ∧
      ((∀ before, OccursAfter (assignmentTo name) (takeBytes offset code) before →
          endsInName before = true) →
        resolve? code name offset = none ∨
          ∃ before front value, front ≠ [] ∧ IsFoundIn code name offset before front value ∧
            resolve? code name offset =
              resolve? code value (byteLength (before ++ front) - 1)) := by
  refine ⟨fun result => resolve?_identifier_eq_some_iff hidentifier hname, fun hother => ?_⟩
  cases hresult : resolve? code name offset with
  | none => exact .inl rfl
  | some result =>
    obtain ⟨before, front, value, hfound, hvalue⟩ :=
      (resolve?_identifier_eq_some_iff hidentifier hname).mp hresult
    refine .inr ⟨before, front, value, ?_, hfound, hvalue.symm⟩
    rintro rfl
    exact nomatch (hother before hfound.occursAfter_of_nil).symm.trans hfound.whole

/-- A later assignment to a longer name hides the one to the identifier itself. -/
theorem resolve?_identifier_of_later_longer_name :
    let code := "ret = PyInt_FromLong(n);\npyret = PyList_New(0);\nreturn ret;".toList
    let name := "ret".toList
    IsIdentifier name ∧ name ≠ emptyResult ∧
      resolve? code name 47 = some "PyList_New(0)".toList := by
  intro code name
  have hidentifier : IsIdentifier name := ⟨by decide, by decide, by decide⟩
  have hname : name ≠ emptyResult := by decide
  let before := "ret = PyInt_FromLong(n);\n".toList
  let value := "PyList_New(0)".toList
  have hfound : IsFoundIn code name 47 before "py".toList value := by
    refine ⟨⟨"PyList_New(0);\nreturn ret;".toList, rfl⟩, by decide, by decide, ?_, ?_⟩
    · have hcut : Text.cutLast? (assignmentTo name) (takeBytes 47 code) =
          some (before ++ "py".toList, "PyList_New(0);".toList) := by decide
      exact isLastAssigned_iff.mpr ⟨_, Text.isLastOccurrence_of_cutLast? hcut, rfl⟩
    · exact ⟨_, "\nreturn ret;".toList, rfl, rfl, by decide⟩
  have hcall : resolve? code value (byteLength (before ++ "py".toList) - 1) = some value :=
    resolveWithin_of_resolved (by decide)
  exact ⟨hidentifier, hname,
    ((resolve?_identifier hidentifier hname).1 _).mpr ⟨_, _, _, hfound, hcall⟩⟩

/-- A variable that is never assigned stands for the value of one whose name ends in its name. -/
theorem longer_name_decides :
    let code := "pyret = PyInt_FromLong(n);\nreturn ret;".toList
    let name := "ret".toList
    IsIdentifier name ∧ name ≠ emptyResult ∧
      (∀ before, OccursAfter (assignmentTo name) (takeBytes 26 code) before →
        endsInName before = true) ∧
      resolve? code name 26 = some "PyInt_FromLong(n)".toList := by
  intro code name
  refine ⟨⟨by decide, by decide, by decide⟩, by decide, fun before hoccurs => ?_, ?_⟩
  · have hall : ∀ before ∈ (takeBytes 26 code).inits,
        before ++ assignmentTo name <+: takeBytes 26 code → endsInName before = true := by
      decide
    exact hall before ((List.mem_inits _ _).mpr hoccurs.beginning) hoccurs
  · have hcut : Text.cutLast? (assignmentTo name) (takeBytes 26 code) =
        some ("py".toList, "PyInt_FromLong(n);".toList) := by decide
    have hlast := isLastAssigned_iff.mpr ⟨_, Text.isLastOccurrence_of_cutLast? hcut, rfl⟩
    have hvalue : IsValueAt code (byteLength "pyret = ".toList) "PyInt_FromLong(n)".toList :=
      ⟨_, "\nreturn ret;".toList, rfl, rfl, by decide⟩
    exact (resolve?_eq_some_iff rfl (by decide) (by decide)).mpr
      ⟨_, _, hlast, hvalue, resolveWithin_of_resolved (by decide)⟩

end Stubgen.Wrapper
