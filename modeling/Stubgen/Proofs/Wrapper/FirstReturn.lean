import Stubgen.Proofs.Wrapper.Backtracking
import Stubgen.Wrapper.Signature

/-!
# The first return that is understood

The result of a wrapper is told by its returns, one after the other from the last marker on. The
first whose expression is understood decides, and what follows it has no say: text that is added at
the end changes neither the returns before it nor what their expressions stand for.
-/

namespace Stubgen.Wrapper

open Text (OccursAfter byteLength)

variable {code expr window before rest skipped after extra : List Char}

/-- An expression is returned after the text `before`, and a semicolon ends it. -/
structure IsReturn (code before expr : List Char) : Prop where
  text : ∃ rest, code = before ++ returnWord ++ expr ++ ';' :: rest
  expr : ';' ∉ expr

/-- The returns after a text count, for no marker begins after it. -/
def IsSearched (code before : List Char) : Prop :=
  ∀ start, OccursAfter marker code start → start.length ≤ before.length

/-- The type of an expression that is returned after the text `before`: the one of what it stands
for just before the return. -/
def typeAt? (code before expr : List Char) : Option Result :=
  (resolve? code expr (byteLength before - 1)).bind classify?

/-- The first return in the places searched that is understood, and its type. -/
structure IsFirstUnderstood (code : List Char) (searched : List Char → Prop)
    (before expr : List Char) (result : Result) : Prop where
  place : searched before
  returns : IsReturn code before expr
  understood : typeAt? code before expr = some result
  earlier : ∀ other otherExpr, searched other → IsReturn code other otherExpr →
    other.length < before.length → typeAt? code other otherExpr = none

/-- What the returns in the places searched tell of the result. -/
inductive Tells (code : List Char) (searched : List Char → Prop) : Option Result → Prop where
  | understood {before expr : List Char} {result : Result}
    (hfirst : IsFirstUnderstood code searched before expr result) :
    Tells code searched (some result)
  | nothing (hnone : ∀ before expr, searched before → IsReturn code before expr →
      typeAt? code before expr = none) :
    Tells code searched none

/-! ## Returns -/

/-- The word of a return stands where the return begins. -/
theorem IsReturn.occurs (h : IsReturn code before expr) : OccursAfter returnWord code before := by
  obtain ⟨rest, rfl⟩ := h.text
  exact ⟨expr ++ ';' :: rest, by simp⟩

/-- What is returned is the text up to the next semicolon. -/
theorem isReturn_iff :
    IsReturn code before expr ↔ OccursAfter returnWord code before ∧
      Text.upTo? ';' (code.drop (before.length + returnWord.length)) = some expr := by
  constructor
  · intro h
    refine ⟨h.occurs, ?_⟩
    obtain ⟨rest, rfl⟩ := h.text
    rw [← List.length_append, List.append_assoc _ expr, List.drop_left]
    exact Text.upTo?_eq_some_iff.mpr ⟨h.expr, rest, rfl⟩
  · rintro ⟨⟨after, rfl⟩, hexpr⟩
    rw [← List.length_append, List.drop_left] at hexpr
    obtain ⟨hmark, rest, rfl⟩ := Text.upTo?_eq_some_iff.mp hexpr
    exact ⟨⟨rest, by simp⟩, hmark⟩

/-- A semicolon follows the word of a return. -/
theorem IsReturn.semicolon_mem (h : IsReturn code before expr) :
    ';' ∈ code.drop (before.length + returnWord.length) := by
  obtain ⟨_, rest, hrest⟩ := Text.upTo?_eq_some_iff.mp (isReturn_iff.mp h).2
  simp [hrest]

/-- The expression of a return is the only one at its place. -/
theorem IsReturn.unique {other otherExpr : List Char} (h : IsReturn code before expr)
    (hother : IsReturn code other otherExpr) (hlength : before.length = other.length) :
    before = other ∧ expr = otherExpr := by
  obtain rfl := h.occurs.eq_of_length_eq hother.occurs hlength
  exact ⟨rfl, Option.some.inj ((isReturn_iff.mp h).2.symm.trans (isReturn_iff.mp hother).2)⟩

/-- The words of two returns do not overlap. -/
theorem add_length_le_of_returnWord {other : List Char}
    (h : OccursAfter returnWord code before) (hother : OccursAfter returnWord code other)
    (hlt : before.length < other.length) :
    before.length + returnWord.length ≤ other.length := by
  have hapart : ∀ n < returnWord.length, 0 < n →
      ¬(returnWord.drop n <+: returnWord ∨ returnWord <+: returnWord.drop n) := by decide
  by_contra hoverlap
  exact hapart _ (by omega) (by omega) (h.overlap hother (by omega) (by omega))

/-- The word of a return does not begin inside a marker. -/
theorem add_length_le_of_marker {start : List Char}
    (h : OccursAfter marker code start) (hreturn : OccursAfter returnWord code before)
    (hle : start.length ≤ before.length) :
    start.length + marker.length ≤ before.length := by
  have hapart : ∀ n < marker.length,
      ¬(marker.drop n <+: returnWord ∨ returnWord <+: marker.drop n) := by decide
  by_contra hoverlap
  exact hapart _ (by omega) (h.overlap hreturn hle (by omega))

/-- The expression of a return is resolved in the text before it but for the last character. -/
theorem returned?_eq_typeAt? (h : before <+: code) :
    returned? code before expr = typeAt? code before expr := by
  unfold returned? typeAt? resolve?
  rw [Text.takeBytes_pred h]

/-! ## The search -/

variable {searched : List Char → Prop} {told : Option Result}

/-- Places where no return is understood may be searched as well. -/
theorem Tells.widen {others : List Char → Prop} (h : Tells code searched told)
    (hin : ∀ before expr, IsReturn code before expr → searched before → others before)
    (hout : ∀ before expr, IsReturn code before expr → others before →
      searched before ∨ typeAt? code before expr = none) :
    Tells code others told := by
  cases h with
  | understood hfirst =>
    have hplace := hin _ _ hfirst.returns hfirst.place
    refine .understood ⟨hplace, hfirst.returns, hfirst.understood, fun other expr hother => ?_⟩
    intro hreturn hlt
    rcases hout other expr hreturn hother with hsearched | hnone
    · exact hfirst.earlier other expr hsearched hreturn hlt
    · exact hnone
  | nothing hnone =>
    refine .nothing fun other expr hother hreturn => ?_
    rcases hout other expr hreturn hother with hsearched | hnone'
    · exact hnone other expr hsearched hreturn
    · exact hnone'

/-- The returns tell one result at most. -/
theorem Tells.unique {other : Option Result} (h : Tells code searched told)
    (hother : Tells code searched other) : told = other := by
  cases h with
  | nothing hnone =>
    cases hother with
    | nothing _ => rfl
    | understood hfirst =>
      exact nomatch (hnone _ _ hfirst.place hfirst.returns).symm.trans hfirst.understood
  | understood hfirst =>
    cases hother with
    | nothing hnone =>
      exact nomatch (hnone _ _ hfirst.place hfirst.returns).symm.trans hfirst.understood
    | understood hsecond =>
      rcases Nat.lt_trichotomy _ _ with hlt | heq | hgt
      · exact nomatch (hsecond.earlier _ _ hfirst.place hfirst.returns hlt).symm.trans
          hfirst.understood
      · obtain ⟨rfl, rfl⟩ := hfirst.returns.unique hsecond.returns heq
        exact hfirst.understood.symm.trans hsecond.understood
      · exact nomatch (hfirst.earlier _ _ hsecond.place hsecond.returns hgt).symm.trans
          hsecond.understood

/-- The parts found by a search in the rest of the code make up the code. -/
theorem append_of_search (hcode : before ++ rest = code)
    (hcut : Text.cutFirst? returnWord rest = some (skipped, after)) :
    before ++ skipped ++ returnWord ++ after = code := by
  rw [← hcode, ← Text.append_of_cutFirst? hcut]
  simp

/-- What a search for the word of a return finds is a return, if a semicolon ends it. -/
theorem isReturn_of_cutFirst? (hcode : before ++ rest = code)
    (hcut : Text.cutFirst? returnWord rest = some (skipped, after))
    (hexpr : Text.upTo? ';' after = some expr) : IsReturn code (before ++ skipped) expr := by
  obtain ⟨hmark, tail, rfl⟩ := Text.upTo?_eq_some_iff.mp hexpr
  refine ⟨⟨tail, ?_⟩, hmark⟩
  simpa using (append_of_search hcode hcut).symm

/-- The return at the first word that is found begins there, and any other one after the word. -/
theorem IsReturn.first_or_later {other : List Char} (h : IsReturn code other expr)
    (hcode : before ++ rest = code)
    (hcut : Text.cutFirst? returnWord rest = some (skipped, after))
    (hle : before.length ≤ other.length) :
    other = before ++ skipped ∨ (before ++ skipped ++ returnWord).length ≤ other.length := by
  subst hcode
  have hfirst := Text.isFirstOccurrence_of_cutFirst? hcut
  have hfound := hfirst.occurs.append_left before
  obtain ⟨front, rfl, hfront⟩ := h.occurs.exists_of_append hle
  rcases Nat.lt_or_eq_of_le (hfirst.le_length front hfront) with hlt | heq
  · right
    rw [List.length_append]
    exact add_length_le_of_returnWord hfound h.occurs (by simpa using hlt)
  · left
    exact h.occurs.eq_of_length_eq hfound (by simp [heq])

/-- The search goes from return to return, and it ends at the first that is understood or at one
that no semicolon ends. -/
theorem firstReturn?_tells (hcode : before ++ rest = code) :
    Tells code (fun other => before.length ≤ other.length) (firstReturn? code before rest) := by
  fun_induction firstReturn? code before rest with
  | case1 before rest hcut =>
    refine .nothing fun other expr hle hreturn => ?_
    subst hcode
    obtain ⟨front, rfl, hfront⟩ := hreturn.occurs.exists_of_append hle
    exact absurd hfront (Text.cutFirst?_eq_none_iff.mp hcut front)
  | case2 before rest skipped after hcut hmark =>
    refine .nothing fun other expr hle hreturn => ?_
    have hlength : (before ++ skipped ++ returnWord).length ≤ other.length + returnWord.length := by
      rcases hreturn.first_or_later hcode hcut hle with rfl | hlater
      · exact Nat.le_of_eq List.length_append
      · exact Nat.le_add_right_of_le hlater
    have hmem := List.drop_subset_drop_left code hlength hreturn.semicolon_mem
    rw [← append_of_search hcode hcut, List.drop_left] at hmem
    exact absurd hmem (Text.upTo?_eq_none_iff.mp hmark)
  | case3 before rest skipped after hcut expr hexpr result hresult =>
    have hreturn := isReturn_of_cutFirst? hcode hcut hexpr
    rw [returned?_eq_typeAt? hreturn.occurs.beginning] at hresult
    refine .understood ⟨by simp, hreturn, hresult, fun other otherExpr hle hother hlt => ?_⟩
    rcases hother.first_or_later hcode hcut hle with rfl | hlater
    · exact absurd hlt (Nat.lt_irrefl _)
    · rw [List.length_append] at hlater
      omega
  | case4 before rest skipped after hcut expr hexpr hresult ih =>
    have hreturn := isReturn_of_cutFirst? hcode hcut hexpr
    rw [returned?_eq_typeAt? hreturn.occurs.beginning] at hresult
    -- Between the first return and what follows its word no other return begins.
    refine (ih (append_of_search hcode hcut)).widen (fun other _ _ hlater => ?_) ?_
    · simp only [List.length_append] at hlater
      omega
    · intro other otherExpr hother hle
      rcases hother.first_or_later hcode hcut hle with rfl | hlater
      · obtain ⟨_, rfl⟩ := hreturn.unique hother rfl
        exact .inr hresult
      · exact .inl hlater

/-- The result of a wrapper is told by the returns after the last marker. -/
theorem result?_tells (code : List Char) : Tells code (IsSearched code) (result? code) := by
  unfold result?
  split
  · next before after hcut =>
    have hlast := Text.isLastOccurrence_of_cutLast? hcut
    refine (firstReturn?_tells (Text.append_of_cutLast? hcut)).widen
      (fun other _ _ hle start hstart => ?_) fun other _ hreturn hsearched => .inl ?_
    · have hle' := hlast.length_le start hstart
      rw [List.length_append] at hle
      omega
    · rw [List.length_append]
      exact add_length_le_of_marker hlast.occurs hreturn.occurs (hsearched before hlast.occurs)
  · next hcut =>
    have hnone := Text.cutLast?_eq_none_iff.mp hcut
    exact (firstReturn?_tells (List.nil_append code)).widen
      (fun _ _ _ _ start hstart => absurd hstart (hnone start))
      fun _ _ _ _ => .inl (Nat.zero_le _)

/-- The returns tell exactly the result of a wrapper. -/
theorem result?_eq_iff : result? code = told ↔ Tells code (IsSearched code) told :=
  ⟨fun h => h ▸ result?_tells code, fun h => (result?_tells code).unique h⟩

/-! ## Longer texts -/

/-- Text that is added after a semicolon behind the window does not change what an expression stands
for within the window. -/
theorem resolveWithin_append (h : ';' ∈ code.drop window.length) (extra : List Char) :
    resolveWithin (code ++ extra) expr window = resolveWithin code expr window := by
  induction hlength : window.length using Nat.strongRecOn generalizing expr window with
  | ind length ih =>
    by_cases hresolved : IsResolved expr
    · rw [resolveWithin_of_resolved hresolved, resolveWithin_of_resolved hresolved]
    by_cases hempty : expr = []
    · rw [hempty, resolveWithin_nil, resolveWithin_nil]
    rw [resolveWithin_of_open hresolved hempty, resolveWithin_of_open hresolved hempty]
    refine Option.bind_congr fun cut hcut => ?_
    have hwindow := congrArg List.length (Text.append_of_cutLast? hcut)
    simp only [List.length_append] at hwindow
    have hnext : (assignmentTo expr).length = expr.length + 3 := List.length_append
    -- The value of the assignment ends at or before the semicolon.
    have hvalue : ';' ∈ code.drop (cut.1.length + (assignmentTo expr).length) :=
      List.drop_subset_drop_left code (by omega) h
    rw [Text.upTo?_drop_append hvalue]
    refine Option.bind_congr fun value _ => ih cut.1.dropLast.length ?_ ?_ rfl
    · rw [List.length_dropLast]
      omega
    · refine List.drop_subset_drop_left code ?_ h
      rw [List.length_dropLast]
      omega

/-- The type of a return does not change either. -/
theorem IsReturn.typeAt?_append (h : IsReturn code before expr) (extra : List Char) :
    typeAt? (code ++ extra) before expr = typeAt? code before expr := by
  have hlonger := h.occurs.append extra
  rw [← returned?_eq_typeAt? hlonger.beginning, ← returned?_eq_typeAt? h.occurs.beginning]
  unfold returned?
  rw [resolveWithin_append]
  refine List.drop_subset_drop_left code ?_ h.semicolon_mem
  rw [List.length_dropLast]
  omega

/-- A return is still one when text is added. -/
theorem IsReturn.append (h : IsReturn code before expr) (extra : List Char) :
    IsReturn (code ++ extra) before expr := by
  obtain ⟨rest, rfl⟩ := h.text
  exact ⟨⟨rest ++ extra, by simp⟩, h.expr⟩

/-- Before a return there are no other returns when text is added. -/
theorem IsReturn.of_append {other otherExpr : List Char} (h : IsReturn code before expr)
    (hother : IsReturn (code ++ extra) other otherExpr) (hlt : other.length < before.length) :
    IsReturn code other otherExpr := by
  have hwords := add_length_le_of_returnWord hother.occurs (h.append extra).occurs hlt
  have hle : before.length ≤ before.length + returnWord.length := Nat.le_add_right _ _
  have hvalue : ';' ∈ code.drop (other.length + returnWord.length) :=
    List.drop_subset_drop_left code (Nat.le_trans hwords hle) h.semicolon_mem
  have hin := List.length_lt_of_drop_ne_nil (List.ne_nil_of_mem hvalue)
  obtain ⟨hoccurs, hexpr⟩ := isReturn_iff.mp hother
  rw [Text.upTo?_drop_append hvalue] at hexpr
  exact isReturn_iff.mpr
    ⟨hoccurs.within (List.prefix_append code extra) (Nat.le_of_lt hin), hexpr⟩

/-- The result of a wrapper stays the same when text without a marker is added. -/
theorem result?_append {result : Result} (h : result? code = some result)
    (hmarkers : ∀ start, OccursAfter marker (code ++ extra) start → OccursAfter marker code start) :
    result? (code ++ extra) = some result := by
  have hsearched {other : List Char} :
      IsSearched (code ++ extra) other ↔ IsSearched code other :=
    ⟨fun hother start hstart => hother start (hstart.append extra),
      fun hother start hstart => hother start (hmarkers start hstart)⟩
  rw [result?_eq_iff] at h ⊢
  cases h with
  | @understood before expr _ hfirst =>
    have hreturn := hfirst.returns
    refine .understood ⟨hsearched.mpr hfirst.place, hreturn.append extra, ?_, ?_⟩
    · rw [hreturn.typeAt?_append, hfirst.understood]
    · intro other otherExpr hin hother hlt
      have hearlier := hreturn.of_append hother hlt
      rw [hearlier.typeAt?_append]
      exact hfirst.earlier other otherExpr (hsearched.mp hin) hearlier hlt

/-- A tag is recovered for a wrapper exactly if it is the one of the first return that is
understood. -/
theorem map_toTag_result?_eq_some_iff {tag : String} :
    (result? code).map Result.toTag = some tag ↔
      ∃ before expr result, IsFirstUnderstood code (IsSearched code) before expr result ∧
        result.toTag = tag := by
  rw [Option.map_eq_some_iff]
  constructor
  · rintro ⟨result, hresult, rfl⟩
    cases result?_eq_iff.mp hresult with
    | understood hfirst => exact ⟨_, _, result, hfirst, rfl⟩
  · rintro ⟨before, expr, result, hfirst, rfl⟩
    exact ⟨result, result?_eq_iff.mpr (.understood hfirst), rfl⟩

/-- The type recovered for a wrapper is the one of the first return after the last marker that a
semicolon ends and whose expression is resolved and understood, and there is none if there is no
such return. Text that is added at the end, without a new marker, does not change it. -/
theorem result?_first (code : List Char) :
    (∀ tag, (result? code).map Result.toTag = some tag ↔
      ∃ before expr result, IsFirstUnderstood code (IsSearched code) before expr result ∧
        result.toTag = tag) ∧
      ((result? code).map Result.toTag = none ↔
        ∀ before expr, IsSearched code before → IsReturn code before expr →
          typeAt? code before expr = none) ∧
      (∀ extra tag, (∀ start, OccursAfter marker (code ++ extra) start →
          OccursAfter marker code start) →
        (result? code).map Result.toTag = some tag →
          (result? (code ++ extra)).map Result.toTag = some tag) := by
  refine ⟨fun tag => map_toTag_result?_eq_some_iff, ?_, fun extra tag hmarkers htag => ?_⟩
  · rw [Option.map_eq_none_iff, result?_eq_iff]
    constructor
    · rintro ⟨hnone⟩
      assumption
    · exact .nothing
  · obtain ⟨result, hresult, rfl⟩ := Option.map_eq_some_iff.mp htag
    rw [result?_append hresult hmarkers, Option.map_some]

/-- A return that is not understood is passed over, and one that is added comes too late. -/
theorem result?_first_of_unknown_return :
    let skipped := "_wrap_f: if (!x) ".toList
    let code := skipped ++ "return NULL; n = PyInt_FromLong(x); return n;".toList
    let extra := " return Py_None;".toList
    (IsSearched code skipped ∧ IsReturn code skipped "NULL".toList ∧
        typeAt? code skipped "NULL".toList = none) ∧
      (∀ start, OccursAfter marker (code ++ extra) start → OccursAfter marker code start) ∧
      (∃ before expr result, IsFirstUnderstood code (IsSearched code) before expr result ∧
        result.toTag = "int") ∧
      (result? (code ++ extra)).map Result.toTag = some "int" := by
  intro skipped code extra
  have hmarkers : ∀ start, OccursAfter marker (code ++ extra) start → start = [] := by
    have hcut : Text.cutLast? marker (code ++ extra) =
        some ([], (code ++ extra).drop marker.length) := by decide
    intro start hstart
    have hlast := Text.isLastOccurrence_of_cutLast? hcut
    exact List.length_eq_zero_iff.mp (Nat.le_zero.mp (hlast.length_le start hstart))
  have hkept : ∀ start, OccursAfter marker (code ++ extra) start →
      OccursAfter marker code start := by
    intro start hstart
    rw [hmarkers start hstart]
    exact ⟨code.drop marker.length, rfl⟩
  have hsearched : IsSearched code skipped := by
    intro start hstart
    rw [hmarkers start (hstart.append extra)]
    exact Nat.zero_le _
  have hreturn : IsReturn code skipped "NULL".toList :=
    ⟨⟨" n = PyInt_FromLong(x); return n;".toList, rfl⟩, by decide⟩
  have htag : (result? code).map Result.toTag = some "int" := by decide +kernel
  exact ⟨⟨hsearched, hreturn, by decide +kernel⟩, hkept, ((result?_first code).1 "int").mp htag,
    (result?_first code).2.2 extra "int" hkept htag⟩

end Stubgen.Wrapper
