import Stubgen.Override.Application
import Stubgen.Proofs.Wrapper.Calls
import Stubgen.Proofs.Wrapper.FirstReturn

/-!
# What a wrapper tells

A wrapper without arguments tells that there are no parameters. Any other one tells them by the
first parsing call of its text, and the call that parses keyword arguments, too, goes before the one
that does not. The result is told by the first return that is understood. Here this is said of the
text alone, without a search, and what is recovered from a wrapper is exactly what it tells.
-/

namespace Stubgen

open Text (Brackets IsFirstOccurrence splitAt trim)

namespace Wrapper

/-- The arguments stand between the parentheses of the first call of this name in the text from the
wrapper function on. -/
def ParsingCall.Encloses (call : ParsingCall) (code arguments : List Char) : Prop :=
  Brackets.round.Settles 0 arguments ∧ ∃ before rest,
    IsFirstOccurrence call.name.toList (wrapperText code) before ∧
      before ++ call.name.toList ++ (arguments ++ ')' :: rest) = wrapperText code

/-- The call tells the parameters: its arguments, between commas, are as many as it needs. The
format is in its place among them, and the variables that are filled are the last ones. -/
def ParsingCall.Tells (call : ParsingCall) (code : List Char) (types : List TypedName) : Prop :=
  ∃ arguments, call.Encloses code arguments ∧
    let parts := (splitAt ',' arguments).map trim
    call.namesFrom ≤ parts.length ∧
      types = takenTypes ((parts.drop call.namesFrom).map variableName)
        (formatSection (unquote (parts.getD call.formatAt [])))

/-- The text of a wrapper tells the parameters. -/
inductive TellsParameters (code : List Char) : List TypedName → Prop where
  | keywords {types : List TypedName} (htells : keywordCall.Tells code types) :
    TellsParameters code types
  | positional {types : List TypedName} (hother : ∀ types, ¬keywordCall.Tells code types)
    (htells : positionalCall.Tells code types) : TellsParameters code types

/-- The text of a wrapper tells the tag of its result, by the first return that is understood. -/
def TellsResult (code : List Char) (tag : String) : Prop :=
  ∃ before expr result, IsFirstUnderstood code (IsSearched code) before expr result ∧
    result.toTag = tag

variable {call : ParsingCall} {code arguments : List Char} {types : List TypedName} {tag : String}

/-- The arguments of a call are read exactly if there are as many as it needs. -/
theorem ParsingCall.read_eq_found_iff :
    call.read arguments = .found types ↔
      let parts := (splitAt ',' arguments).map trim
      call.namesFrom ≤ parts.length ∧
        types = takenTypes ((parts.drop call.namesFrom).map variableName)
          (formatSection (unquote (parts.getD call.formatAt []))) := by
  unfold ParsingCall.read
  dsimp only
  split
  · next hfew => exact iff_of_false nofun fun h => absurd hfew (Nat.not_lt_of_le h.1)
  · next henough => rw [and_iff_right (Nat.le_of_not_lt henough), CallSite.found.injEq, eq_comm]

/-- A call is found with the parameters that it tells. -/
theorem ParsingCall.site_eq_found_iff : call.site code = .found types ↔ call.Tells code types := by
  rw [ParsingCall.site_eq]
  constructor
  · intro h
    cases hcut : Text.cutFirst? call.name.toList (wrapperText code) with
    | none =>
      rw [hcut, Option.elim_none] at h
      cases h
    | some found =>
      obtain ⟨before, after⟩ := found
      rw [hcut, Option.elim_some, ParsingCall.told] at h
      cases hclosed : untilClosed 0 after with
      | none =>
        rw [hclosed] at h
        cases h
      | some arguments =>
        rw [hclosed] at h
        obtain ⟨rest, rfl, hsettles⟩ := untilClosed_eq_some_iff.mp hclosed
        obtain ⟨hfirst, htext⟩ := Text.cutFirst?_eq_some_iff.mp hcut
        exact ⟨arguments, ⟨hsettles, before, rest, hfirst, htext⟩, read_eq_found_iff.mp h⟩
  · rintro ⟨arguments, ⟨hsettles, before, rest, hfirst, htext⟩, hread⟩
    have hclosed := untilClosed_eq_some_iff.mpr ⟨rest, rfl, hsettles⟩
    rw [Text.cutFirst?_eq_some_iff.mpr ⟨hfirst, htext⟩, Option.elim_some, ParsingCall.told,
      hclosed]
    exact read_eq_found_iff.mpr hread

/-- The parameters of a call that is found. -/
def CallSite.found? : CallSite → Option (List TypedName)
  | .found types => some types
  | .absent | .unterminated | .malformed => none

/-- A call has parameters if it is found with them. -/
theorem CallSite.found?_eq_some_iff {site : CallSite} :
    site.found? = some types ↔ site = .found types := by
  cases site <;> simp [found?]

/-- The parameters of a wrapper are those of the call that parses keyword arguments, too, if it is
found, and those of the other call if not. -/
theorem parameters?_eq_or (code : List Char) :
    parameters? code = (keywordCall.site code).found?.or (positionalCall.site code).found? := by
  unfold parameters?
  cases keywordCall.site code <;> cases positionalCall.site code <;> rfl

/-- The parameters recovered for a wrapper are those that its text tells. -/
theorem parameters?_eq_some_iff : parameters? code = some types ↔ TellsParameters code types := by
  have htells (call : ParsingCall) (types : List TypedName) :
      (call.site code).found? = some types ↔ call.Tells code types :=
    CallSite.found?_eq_some_iff.trans ParsingCall.site_eq_found_iff
  rw [parameters?_eq_or, Option.or_eq_some_iff, htells, htells, Option.eq_none_iff_forall_ne_some]
  constructor
  · rintro (hkeywords | ⟨hnone, hpositional⟩)
    · exact .keywords hkeywords
    · exact .positional (fun types h => hnone types ((htells keywordCall types).mpr h)) hpositional
  · rintro (hkeywords | ⟨hother, hpositional⟩)
    · exact .inl hkeywords
    · exact .inr ⟨fun types h => hother types ((htells keywordCall types).mp h), hpositional⟩

end Wrapper

namespace Override

/-- A wrapper tells a signature: the parameters that its text tells, or none if it has no arguments,
and the tag of the result. -/
inductive Tells : Override → List TypedName → String → Prop where
  | noArguments {code returns : String} (hresult : Wrapper.TellsResult code.toList returns) :
    Tells ⟨.noArguments, code⟩ [] returns
  | arguments {style : CallStyle} {code returns : String} {types : List TypedName}
    (hstyle : style = .keywords ∨ style = .positional)
    (hparameters : Wrapper.TellsParameters code.toList types)
    (hresult : Wrapper.TellsResult code.toList returns) : Tells ⟨style, code⟩ types returns

variable {override : Override} {types : List TypedName} {returns : String}

/-- The result recovered for a wrapper is the one that it tells. -/
theorem returns?_eq_some_iff :
    override.returns? = some returns ↔ Wrapper.TellsResult override.code.toList returns :=
  Wrapper.map_toTag_result?_eq_some_iff

/-- The parameters and the result recovered for a wrapper are the signature that it tells. -/
theorem tells_iff :
    override.parameters? = some types ∧ override.returns? = some returns ↔
      override.Tells types returns := by
  obtain ⟨style, code⟩ := override
  rw [returns?_eq_some_iff]
  cases style with
  | noArguments =>
    constructor
    · rintro ⟨hparameters, hresult⟩
      exact Option.some.inj hparameters ▸ .noArguments hresult
    · rintro (hresult | ⟨hstyle, -, -⟩)
      · exact ⟨rfl, hresult⟩
      · simp at hstyle
  | keywords =>
    constructor
    · rintro ⟨hparameters, hresult⟩
      exact .arguments (.inl rfl) (Wrapper.parameters?_eq_some_iff.mp hparameters) hresult
    · rintro (_ | ⟨-, hparameters, hresult⟩)
      exact ⟨Wrapper.parameters?_eq_some_iff.mpr hparameters, hresult⟩
  | positional =>
    constructor
    · rintro ⟨hparameters, hresult⟩
      exact .arguments (.inr rfl) (Wrapper.parameters?_eq_some_iff.mp hparameters) hresult
    · rintro (_ | ⟨-, hparameters, hresult⟩)
      exact ⟨Wrapper.parameters?_eq_some_iff.mpr hparameters, hresult⟩

end Override

end Stubgen
