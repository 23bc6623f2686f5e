import Stubgen.Defs.Expansion

/-!
# Expansion step by step

An expansion in progress holds the visits of the files that are being expanded, the innermost
first. A step enters a file, which puts a visit on top of the others, or looks at the next
form of the innermost visit, or leaves the innermost visit because it is at its end or because
an error is passed outwards. Nothing in a step bounds the number of steps.
-/

namespace Stubgen.Defs

open Files (Key Path Tree)

namespace Directive

/-- The forms that a condition holds, given what follows its head. -/
def guarded : List Form → List Form
  | [] => []
  | .list items :: more => .list items :: more
  | _ :: more => more

/-- What a form at the top stands for: a condition for the forms that it holds, the empty list
for nothing, and any other form for one directive. -/
def opened : Form → List Form ⊕ Directive
  | .list [] => .inl []
  | .list (head :: rest) =>
    if isCondition head then .inl (guarded rest) else .inr (ofList (head :: rest))
  | form => .inr (.fault (.notAList form))

/-- The directives of a list depend on whether its head announces a condition. -/
private theorem ofForm_cons (head : Form) (rest : List Form) :
    ofForm (.list (head :: rest)) =
      if isCondition head then ofForms (guarded rest) else [ofList (head :: rest)] := by
  cases rest with
  | nil => simp only [ofForm, guarded, ofForms]
  | cons form more =>
    cases form with
    | atom text => simp only [ofForm, guarded]
    | str text => simp only [ofForm, guarded]
    | list items => simp only [ofForm, guarded, ofForms]

/-- A form has the directives of the forms that it stands for. -/
theorem ofForm_of_opened_forms {form : Form} {forms : List Form}
    (hopened : opened form = .inl forms) : ofForm form = ofForms forms := by
  unfold opened at hopened
  split at hopened
  · obtain rfl := Sum.inl.inj hopened
    simp only [ofForm, ofForms]
  · next head rest =>
    split at hopened
    · next hhead =>
      obtain rfl := Sum.inl.inj hopened
      rw [ofForm_cons, if_pos hhead]
    · exact nomatch hopened
  · exact nomatch hopened

/-- A form that stands for one directive has this directive only. -/
theorem ofForm_of_opened_directive {form : Form} {directive : Directive}
    (hopened : opened form = .inr directive) : ofForm form = [directive] := by
  cases form with
  | atom text =>
    obtain rfl := Sum.inr.inj hopened
    simp only [ofForm]
  | str text =>
    obtain rfl := Sum.inr.inj hopened
    simp only [ofForm]
  | list items =>
    cases items with
    | nil => cases hopened
    | cons head rest =>
      rw [opened] at hopened
      split at hopened
      · cases hopened
      · next hhead =>
        obtain rfl := Sum.inr.inj hopened
        rw [ofForm_cons, if_neg hhead]

/-- What a condition holds has no more tokens than what follows its head. -/
private theorem length_itemTokens_guarded_le (rest : List Form) :
    (Form.itemTokens (guarded rest)).length ≤ (Form.itemTokens rest).length := by
  unfold guarded
  split
  · exact Nat.le_refl _
  · exact Nat.le_refl _
  · simp [Form.itemTokens]

/-- The forms that a form stands for have fewer tokens. -/
theorem length_itemTokens_lt_of_opened {form : Form} {forms : List Form}
    (hopened : opened form = .inl forms) :
    (Form.itemTokens forms).length < form.tokens.length := by
  unfold opened at hopened
  split at hopened
  · obtain rfl := Sum.inl.inj hopened
    simp [Form.itemTokens, Form.tokens]
  · next head rest =>
    split at hopened
    · obtain rfl := Sum.inl.inj hopened
      have hguarded := length_itemTokens_guarded_le rest
      simp only [Form.tokens, Form.itemTokens, List.length_cons, List.length_append]
      omega
    · cases hopened
  · cases hopened

/-! ## Forms with lines -/

/-- The directives of forms on one line are on this line. -/
theorem ofTopLevels_map (line : Nat) (forms : List Form) :
    ofTopLevels (forms.map (⟨line, ·⟩)) = (ofForms forms).map (line, ·) := by
  induction forms with
  | nil => simp only [ofForms, List.map_nil, ofTopLevels, List.flatMap_nil]
  | cons form rest ih =>
    rw [ofForms, List.map_append, ← ih]
    rfl

/-- The number of tokens of the forms that have not been looked at. -/
def tokenCount (pending : List TopLevel) : Nat :=
  (pending.flatMap fun top => top.form.tokens).length

/-- Forms on one line have the tokens of the forms. -/
theorem tokenCount_map (line : Nat) (forms : List Form) :
    tokenCount (forms.map (⟨line, ·⟩)) = (Form.itemTokens forms).length := by
  induction forms with
  | nil => rfl
  | cons form rest ih =>
    rw [Form.itemTokens, List.length_append, ← ih]
    simp only [tokenCount, List.map_cons, List.flatMap_cons, List.length_append]

/-- Fewer tokens are left when a form gives way to the forms that it stands for. -/
theorem tokenCount_lt_of_opened {top : TopLevel} {forms : List Form}
    (hopened : opened top.form = .inl forms) (rest : List TopLevel) :
    tokenCount (forms.map (⟨top.line, ·⟩) ++ rest) < tokenCount (top :: rest) := by
  have hforms := length_itemTokens_lt_of_opened hopened
  rw [← tokenCount_map top.line] at hforms
  simp only [tokenCount, List.flatMap_append, List.flatMap_cons, List.length_append] at hforms ⊢
  omega

/-- The directives of forms of which the first stands for one directive. -/
theorem ofTopLevels_cons_of_opened {top : TopLevel} {directive : Directive}
    (hopened : opened top.form = .inr directive) (rest : List TopLevel) :
    ofTopLevels (top :: rest) = (top.line, directive) :: ofTopLevels rest := by
  simp [ofTopLevels, ofForm_of_opened_directive hopened]

end Directive

/-- A file that is being expanded. -/
structure Visit where
  key : Key
  path : Path
  /-- The forms that have not been looked at, with their lines. -/
  pending : List TopLevel

/-- What an expansion does next. -/
inductive Turn where
  /-- The file that a path leads to is to be expanded. -/
  | enter (path : Path)
  /-- The innermost visit goes on. -/
  | proceed
  /-- An error is passed outwards. -/
  | abandon (e : Error)

/-- An expansion in progress. -/
structure Progress where
  /-- The files that are being expanded, the innermost first. -/
  visits : List Visit
  cache : Cache
  records : List Record
  events : List Event
  turn : Turn

namespace Progress

/-- The keys of the files that are being expanded. -/
def active (progress : Progress) : List Key :=
  progress.visits.map Visit.key

/-- Whether a file is being expanded is seen from the visits. -/
instance (progress : Progress) (key : Key) : Decidable (key ∈ progress.active) :=
  decidable_of_iff (∃ visit ∈ progress.visits, visit.key = key) List.mem_map.symm

/-- The beginning of the expansion of a file. -/
def start (cache : Cache) (path : Path) : Progress :=
  ⟨[], cache, [], [], .enter path⟩

/-- Passes over a file. -/
def skip (progress : Progress) (path : Path) : Progress :=
  { progress with events := progress.events ++ [.cyclicInclude path], turn := .proceed }

/-- Begins the visit of a file, unless it is being visited or cannot be read. -/
def enter (tree : Tree) (progress : Progress) (path : Path) : Progress :=
  match tree.readFile path with
  | .error e => { progress with turn := .abandon (.os e) }
  | .ok (key, _) =>
    if key ∈ progress.active then progress.skip path
    else
      match progress.cache.load tree path with
      | (.error e, cache) => { progress with cache := cache, turn := .abandon e }
      | (.ok forms, cache) =>
        { progress with
          visits := ⟨key, path, forms⟩ :: progress.visits, cache := cache, turn := .proceed }

/-- Follows a directive on a line of a file. -/
def follow (progress : Progress) (path : Path) (line : Nat) : Directive → Progress
  | .include target => { progress with turn := .enter (path.directory.join ⟨target⟩) }
  | .define record => { progress with records := progress.records ++ [record] }
  | .fault cause => { progress with turn := .abandon (.defs path ⟨line, cause⟩) }

/-- Looks at the next form of the innermost visit, or leaves the visit at its end. -/
def proceed (progress : Progress) (visit : Visit) (outer : List Visit) : Progress :=
  match visit.pending with
  | [] => { progress with visits := outer }
  | top :: rest =>
    match Directive.opened top.form with
    | .inl forms =>
      { progress with
        visits := { visit with pending := forms.map (⟨top.line, ·⟩) ++ rest } :: outer }
    | .inr directive =>
      { progress with visits := { visit with pending := rest } :: outer }.follow visit.path
        top.line directive

/-- The next step; when nothing is left to be done, none is taken. -/
def next (tree : Tree) (progress : Progress) : Progress :=
  match progress.turn, progress.visits with
  | .enter path, _ => progress.enter tree path
  | .proceed, visit :: outer => progress.proceed visit outer
  | .abandon _, _ :: outer => { progress with visits := outer }
  | _, [] => progress

end Progress

end Stubgen.Defs
