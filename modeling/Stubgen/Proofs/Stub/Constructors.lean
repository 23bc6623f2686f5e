import Mathlib.Data.List.Forall2
import Stubgen.Proofs.Namespace.Integrity
import Stubgen.Proofs.Sorting
import Stubgen.Proofs.Text.ByteOrder
import Stubgen.Stub.Rendering

/-!
# Constructors that are not stored

The text of a class shows a constructor in any case. A class that stores none gets a default one,
which goes among the stored methods by its name. Methods are stored under their names, so the order
of the keys is the order of the names, and nobody can tell from the text whether the constructor was
stored.
-/

namespace Stubgen

/-! ## Tables whose values are rewritten -/

namespace Table

variable {α β : Type}

/-- The table with all values rewritten. -/
def map (f : α → β) (table : Table α) : Table β :=
  ⟨table.entries.map fun entry => (entry.1, f entry.2), List.pairwise_map.mpr table.ascending⟩

/-- A lookup among rewritten values finds the value rewritten. -/
@[simp] theorem get?_map (f : α → β) (table : Table α) (key : String) :
    (table.map f).get? key = (table.get? key).map f := by
  change valueAt? key (table.entries.map fun entry => (entry.1, f entry.2)) =
    (valueAt? key table.entries).map f
  induction table.entries with
  | nil => rfl
  | cons entry rest ih =>
    rw [List.map_cons, valueAt?_cons, valueAt?_cons, ih]
    split
    · rfl
    · rfl

/-- It makes no difference whether a value is rewritten before it is inserted or afterwards. -/
theorem map_insert (f : α → β) (table : Table α) (key : String) (value : α) :
    (table.insert key value).map f = (table.map f).insert key (f value) := by
  refine ext_get? fun other => ?_
  simp only [get?_map, get?_insert]
  split
  · rfl
  · rfl

/-- Nothing changes if a key takes the value that it has. -/
theorem insert_of_get? {table : Table α} {key : String} {value : α}
    (h : table.get? key = some value) : table.insert key value = table := by
  refine ext_get? fun other => ?_
  rw [get?_insert]
  split
  · next heq => rw [heq, h]
  · rfl

/-- The rewritten values in their order. -/
theorem values_map (f : α → β) (table : Table α) : (table.map f).values = table.values.map f := by
  simp [map, values]

/-- A new key adds its entry to the others. -/
theorem insertEntry_perm {key : String} {list : List (String × α)}
    (hnew : valueAt? key list = none) (value : α) :
    (insertEntry key value list).Perm ((key, value) :: list) := by
  induction list with
  | nil => exact .refl _
  | cons entry rest ih =>
    rw [valueAt?_cons] at hnew
    unfold insertEntry
    split
    · exact .refl _
    · split
      · next heq => simp [heq] at hnew
      · next hne =>
        rw [if_neg hne] at hnew
        exact ((ih hnew).cons entry).trans (.swap _ _ _)

/-- A new key adds its value to the others. -/
theorem values_insert_perm {table : Table α} {key : String} (hnew : table.get? key = none)
    (value : α) : (table.insert key value).values.Perm (value :: table.values) :=
  (insertEntry_perm hnew value).map Prod.snd

end Table

namespace Stub

variable {ns : Namespace} {c : Class} {nativeName : String}

/-! ## Methods under their names -/

/-- Every callable of the table is stored under its name. -/
def StoredByName (table : Table Callable) : Prop :=
  ∀ name callable, table.get? name = some callable → callable.name = name

/-- The order of the keys is that of the names. -/
theorem StoredByName.ascending {table : Table Callable} (h : StoredByName table) :
    table.values.Pairwise fun a b => a.name < b.name := by
  refine List.pairwise_map.mpr (table.ascending.imp_of_mem fun {a b} ha hb hlt => ?_)
  rwa [h a.1 a.2 (Table.mem_entries_iff.mp ha), h b.1 b.2 (Table.mem_entries_iff.mp hb)]

/-- Of callables in ascending order of their names, only one has its name. -/
theorem filter_name_eq {callables : List Callable} {callable : Callable}
    (hascending : callables.Pairwise fun a b => a.name < b.name) (hmem : callable ∈ callables) :
    callables.filter (·.name = callable.name) = [callable] := by
  induction callables with
  | nil => exact absurd hmem List.not_mem_nil
  | cons first rest ih =>
    obtain ⟨hfirst, hrest⟩ := List.pairwise_cons.mp hascending
    rcases List.mem_cons.mp hmem with rfl | hmem
    · have hothers : rest.filter (·.name = callable.name) = [] := by
        refine List.filter_eq_nil_iff.mpr fun other hother heq => ?_
        have hlt := hfirst other hother
        rw [of_decide_eq_true heq] at hlt
        exact String.lt_irrefl _ hlt
      rw [List.filter_cons_of_pos (by simp), hothers]
    · have hne : first.name ≠ callable.name := fun heq =>
        String.lt_irrefl callable.name (heq ▸ hfirst callable hmem)
      rw [List.filter_cons_of_neg (by simpa using hne), ih hrest hmem]

/-- The only callable of a name is the one that is stored under it. -/
theorem StoredByName.filter_name {table : Table Callable} (h : StoredByName table) {name : String}
    {callable : Callable} (hstored : table.get? name = some callable) :
    table.values.filter (·.name = name) = [callable] := by
  rw [← h name callable hstored]
  exact filter_name_eq h.ascending (Table.mem_values_iff.mpr ⟨name, hstored⟩)

/-- Callables in ascending order of their names are what sorting any arrangement of them by name
results in. -/
theorem eq_mergeSort_of_perm {callables arranged : List Callable}
    (hascending : callables.Pairwise fun a b => a.name < b.name) (hperm : callables.Perm arranged) :
    callables = arranged.mergeSort fun a b => a.name ≤ b.name := by
  have hsorted : callables.Pairwise fun a b => a.name ≤ b.name :=
    hascending.imp fun hlt => String.not_lt.mp (String.lt_asymm hlt)
  refine List.Perm.eq_of_pairwise (fun a b ha hb hab hba => ?_) hsorted
    (pairwise_mergeSort_key Callable.name arranged) (hperm.trans (List.mergeSort_perm _ _).symm)
  -- The order compares names only, but no two of the callables have the same name.
  have hname : a.name = b.name := String.le_antisymm hab hba
  have hb : b ∈ callables := hperm.mem_iff.mpr ((List.mergeSort_perm _ _).mem_iff.mp hb)
  have hsame := filter_name_eq hascending ha
  rw [hname, filter_name_eq hascending hb] at hsame
  exact (List.cons.inj hsame).1.symm

/-! ## The methods that a class shows -/

/-- The callables are what a class shows as its methods. -/
structure ShowsMethods (c : Class) (shown : List Callable) : Prop where
  /-- The names ascend in the order of their bytes. -/
  ascending : shown.Pairwise fun a b => Text.utf8 a.name < Text.utf8 b.name
  /-- Every stored method is shown once, and no other one has its name. -/
  stored_once : ∀ name method, c.methods.get? name = some method →
    shown.filter (·.name = name) = [method]
  /-- There is one constructor, which is the stored one if there is one. -/
  one_constructor : shown.filter (·.name = constructorName) =
    [(c.methods.get? constructorName).getD (defaultConstructor c.nativeName)]
  /-- Nothing is shown but the stored methods and the constructor. -/
  nothing_else : ∀ method ∈ shown, method ∈ c.methods.values ∨ method.name = constructorName
  /-- The stored methods are shown in the order of their keys. If no constructor is among them, the
  default one is put behind them, and all are sorted by name. -/
  arranged : shown =
    if c.methods.contains constructorName then c.methods.values
    else (c.methods.values ++ [defaultConstructor c.nativeName]).mergeSort fun a b =>
      a.name ≤ b.name

/-- What is shown under a name is the stored method, and else the default constructor if the name
is that of a constructor. -/
theorem get?_shownMethods (c : Class) (name : String) :
    (shownMethods c).get? name =
      (c.methods.get? name).or
        (if name = constructorName then some (defaultConstructor c.nativeName) else none) := by
  unfold shownMethods Table.contains
  cases hstored : c.methods.get? constructorName with
  | some method =>
    rw [Option.isSome_some, if_pos rfl]
    split
    · next heq => rw [heq, hstored, Option.some_or]
    · rw [Option.or_none]
  | none =>
    rw [Option.isSome_none, if_neg Bool.false_ne_true, Table.get?_insert]
    split
    · next heq => rw [heq, hstored, Option.none_or]
    · rw [Option.or_none]

/-- The default constructor is shown under its name as well. -/
theorem StoredByName.shownMethods (h : StoredByName c.methods) : StoredByName (shownMethods c) := by
  intro name method hshown
  rw [get?_shownMethods, Option.or_eq_some_iff] at hshown
  rcases hshown with hstored | ⟨-, hdefault⟩
  · exact h name method hstored
  · split at hdefault
    · next heq =>
      obtain rfl := Option.some.inj hdefault
      exact heq.symm
    · exact nomatch hdefault

/-- A class shows the methods of its table and a constructor in any case. -/
theorem showsMethods_shownMethods (h : StoredByName c.methods) :
    ShowsMethods c (shownMethods c).values where
  ascending := h.shownMethods.ascending.imp Text.utf8_lt_utf8_iff.mpr
  stored_once name method hstored :=
    h.shownMethods.filter_name (by rw [get?_shownMethods, hstored, Option.some_or])
  one_constructor := h.shownMethods.filter_name (by
    rw [get?_shownMethods, if_pos rfl]
    cases c.methods.get? constructorName with
    | some method => rfl
    | none => rfl)
  nothing_else method hmethod := by
    obtain ⟨name, hshown⟩ := Table.mem_values_iff.mp hmethod
    by_cases hname : name = constructorName
    · exact .inr ((h.shownMethods name method hshown).trans hname)
    · rw [get?_shownMethods, if_neg hname, Option.or_none] at hshown
      exact .inl (Table.mem_values_iff.mpr ⟨name, hshown⟩)
  arranged := by
    have hascending := h.shownMethods.ascending
    unfold Stub.shownMethods at hascending ⊢
    split
    · rfl
    · next hnew =>
      rw [if_neg hnew] at hascending
      refine eq_mergeSort_of_perm hascending ((Table.values_insert_perm ?_ _).trans ?_)
      · simpa [Table.contains] using hnew
      · exact (List.perm_append_singleton _ _).symm

/-! ## The first line of a class -/

/-- The bases of a class as they are written behind its name. -/
def baseList : List String → String
  | [] => ""
  | names => "(" ++ ", ".intercalate names ++ ")"

/-- The names are those under which the parents of a class appear, in the order in which they are
declared. Parents that are not in the namespace are left out. -/
def ListsBases (ns : Namespace) (c : Class) (names : List String) : Prop :=
  List.Forall₂ (fun parent name => ∃ p, ns.class? parent = some p ∧ p.name = name)
    (c.definition.parents.filter ns.classes.contains) names

/-- The bases of a class are the parents that the namespace has. -/
theorem listsBases_bases (ns : Namespace) (c : Class) : ListsBases ns c (bases ns c) := by
  unfold ListsBases bases
  induction c.definition.parents with
  | nil => exact .nil
  | cons parent parents ih =>
    cases hparent : ns.class? parent with
    | none =>
      rw [List.filter_cons_of_neg (by simpa [Table.contains, Namespace.class?] using hparent),
        List.filterMap_cons_none (by rw [Namespace.displayName?, hparent, Option.map_none])]
      exact ih
    | some p =>
      have hcontains : ns.classes.contains parent = true := Option.isSome_of_eq_some hparent
      rw [List.filter_cons_of_pos hcontains,
        List.filterMap_cons_some (by rw [Namespace.displayName?, hparent, Option.map_some])]
      exact .cons ⟨p, hparent, rfl⟩ ih

/-- The first line of a class shows its name and its bases. -/
theorem classHeader_eq (ns : Namespace) (c : Class) :
    classHeader ns c = "class " ++ c.name ++ baseList (bases ns c) ++ ":" := by
  unfold classHeader baseList
  cases bases ns c with
  | nil => rw [String.append_empty]
  | cons name names => simp [String.append_assoc]

/-! ## A constructor that is stored afterwards -/

/-- A constructor returns its receiver, whatever the tag of its result. -/
theorem body_defaultConstructor (shown : String → String) (returns : String) :
    body shown (defaultConstructor returns) = "return " ++ receiver :=
  if_pos rfl

/-- The tag of the result of a constructor does not show. -/
theorem renderCallable_defaultConstructor (shown : String → String) (returns returns' : String) :
    renderCallable shown (defaultConstructor returns) =
      renderCallable shown (defaultConstructor returns') := by
  unfold renderCallable
  rw [body_defaultConstructor, body_defaultConstructor]
  rfl

/-- A class that stores the default constructor shows the texts that it would show without it. -/
theorem shownMethods_putMethod (hnew : c.methods.get? constructorName = none)
    (shown : String → String) (returns : String) :
    (shownMethods (c.putMethod (defaultConstructor returns))).values.map (renderCallable shown) =
      (shownMethods c).values.map (renderCallable shown) := by
  have hstored : shownMethods (c.putMethod (defaultConstructor returns)) =
      c.methods.insert constructorName (defaultConstructor returns) :=
    if_pos (by simp [Class.putMethod, defaultConstructor])
  have hshown : shownMethods c =
      c.methods.insert constructorName (defaultConstructor c.nativeName) :=
    if_neg (by simp [Table.contains, hnew])
  rw [hstored, hshown, ← Table.values_map, ← Table.values_map, Table.map_insert, Table.map_insert,
    renderCallable_defaultConstructor shown returns c.nativeName]

/-- The text of a class depends on a namespace only by the names under which classes appear. -/
theorem renderClass_congr {ns ns' : Namespace} (h : ns.displayName? = ns'.displayName?)
    (c : Class) : renderClass ns c = renderClass ns' c := by
  unfold renderClass classHeader bases Namespace.shownName
  rw [h]

/-- A class that stores the default constructor has the text that it would have without it. -/
theorem renderClass_putMethod (ns : Namespace) (hnew : c.methods.get? constructorName = none)
    (returns : String) :
    renderClass ns (c.putMethod (defaultConstructor returns)) = renderClass ns c := by
  have hmethods := congrArg (List.map ("\n\n" ++ ·))
    (shownMethods_putMethod hnew ns.shownName returns)
  simp only [List.map_map] at hmethods
  exact congrArg (fun texts => _ ++ String.join texts) hmethods

/-- The default constructor is taken up by a class that has no constructor. Only the class and the
native identifiers change. -/
theorem addMethod_defaultConstructor (hclass : ns.class? nativeName = some c)
    (hnew : c.methods.get? constructorName = none) (returns : String) (native? : Option String) :
    let stored := ns.addMethod nativeName (defaultConstructor returns) native?
    stored.classes = ns.classes.insert nativeName (c.putMethod (defaultConstructor returns)) ∧
      stored.functions = ns.functions ∧ stored.constants = ns.constants := by
  intro stored
  have haccepts : ns.acceptsMethod nativeName (defaultConstructor returns) = true := by
    have hmethod : ns.method? nativeName constructorName = none := by
      rw [Namespace.method?, hclass, Option.bind_some, hnew]
    exact congrArg (Namespace.accepts · (defaultConstructor returns)) hmethod
  have hstored : stored = _ := Namespace.addMethod_of_accepts haccepts native?
  have hready : ns.ensureClass nativeName = ns := by rw [Namespace.ensureClass, hclass]
  have hknown : ns.classOrAssumed nativeName = c := by
    rw [Namespace.classOrAssumed, hclass, Option.getD_some]
  rw [hready, hknown] at hstored
  rw [hstored]
  cases native? with
  | none => exact ⟨rfl, rfl, rfl⟩
  | some native => exact ⟨rfl, rfl, rfl⟩

/-- Another class of the same name under a native name changes no name. -/
theorem displayName?_eq_of_insert {stored : Namespace} {c' : Class}
    (hclass : ns.class? nativeName = some c)
    (hstored : stored.classes = ns.classes.insert nativeName c') (hname : c'.name = c.name) :
    stored.displayName? = ns.displayName? := by
  funext other
  rw [Namespace.displayName?, Namespace.class?, hstored, Table.get?_insert]
  split
  · next heq => rw [heq, Namespace.displayName?, hclass, Option.map_some, Option.map_some, hname]
  · rfl

/-- The text of a namespace is that of a namespace whose classes have the same texts under the same
keys and whose functions and constants are the same. -/
theorem render_congr {ns ns' : Namespace} (hnames : ns.displayName? = ns'.displayName?)
    (hclasses : ns.classes.map (renderClass ns') = ns'.classes.map (renderClass ns'))
    (hfunctions : ns.functions = ns'.functions) (hconstants : ns.constants = ns'.constants) :
    render ns = render ns' := by
  have htexts : (ns.classes.map (renderClass ns')).entries =
      (ns'.classes.map (renderClass ns')).entries := by rw [hclasses]
  have hshown : ns.shownName = ns'.shownName := by
    funext name
    rw [Namespace.shownName, Namespace.shownName, hnames]
  have hentries : entries ns = entries ns' := by
    unfold entries
    simp only [renderClass_congr hnames, hfunctions, hconstants, hshown]
    exact congrArg (· ++ _ ++ _) htexts
  rw [render, render, hentries]

/-! ## The text of a class -/

/-- The text of a class in a namespace that operations have built shows the bases that the namespace
has and, in the order of their bytes, every stored method once and one constructor. If the class
stores no constructor, then its text and that of the namespace are the same as after the default
constructor has been added to its methods, whatever the tag of its result and its native
identifier. -/
theorem renderClass_shows_constructor (operations : List Namespace.Operation)
    (hclass : (Namespace.ofOperations operations).class? nativeName = some c) :
    let ns := Namespace.ofOperations operations
    (∃ names methods, ListsBases ns c names ∧ ShowsMethods c methods ∧
      renderClass ns c =
        "class " ++ c.name ++ baseList names ++ ":" ++
          (if c.definition.comments.isEmpty then ""
            else "\n" ++ docBlock (indentation 1) c.definition.comments) ++
          String.join (methods.map fun method =>
            "\n\n" ++ renderCallable ns.shownName method)) ∧
    (c.methods.get? constructorName = none → ∀ returns native?,
      let c' := c.putMethod (defaultConstructor returns)
      let ns' := Namespace.ofOperations
        (operations ++ [.addMethod nativeName (defaultConstructor returns) rfl native?])
      ns'.class? nativeName = some c' ∧ renderClass ns' c' = renderClass ns c ∧
        render ns' = render ns) := by
  intro ns
  have hmethods : StoredByName c.methods := fun name method hstored =>
    ((Namespace.integrity_ofOperations operations).method_named nativeName name method
      (Namespace.method?_eq_some_iff.mpr ⟨c, hclass, hstored⟩)).1
  refine ⟨⟨bases ns c, (shownMethods c).values, listsBases_bases ns c,
    showsMethods_shownMethods hmethods, ?_⟩, fun hnew returns native? => ?_⟩
  · rw [← classHeader_eq]
    rfl
  · intro c' ns'
    have hperformed : ns' = ns.addMethod nativeName (defaultConstructor returns) native? :=
      Namespace.ofOperations_append_singleton operations _
    obtain ⟨hclasses, hfunctions, hconstants⟩ :=
      addMethod_defaultConstructor hclass hnew returns native?
    rw [← hperformed] at hclasses hfunctions hconstants
    have hnames : ns'.displayName? = ns.displayName? :=
      displayName?_eq_of_insert hclass hclasses rfl
    have htext : renderClass ns c' = renderClass ns c := renderClass_putMethod ns hnew returns
    have htexts : ns'.classes.map (renderClass ns) = ns.classes.map (renderClass ns) := by
      rw [hclasses, Table.map_insert, htext]
      refine Table.insert_of_get? ?_
      rw [Table.get?_map, ← Namespace.class?, hclass, Option.map_some]
    refine ⟨?_, (renderClass_congr hnames c').trans htext,
      render_congr hnames htexts hfunctions hconstants⟩
    rw [Namespace.class?, hclasses, Table.get?_insert, if_pos rfl]

/-- A class whose methods go before and behind the constructor by their names. One of its parents is
not in the namespace. -/
theorem renderClass_shows_constructor_of_bin :
    let operations : List Namespace.Operation :=
      [.confirmClass "GtkBin" ⟨"Bin", some "Gtk", ["GtkWidget", "GObject", "GtkBox"], [], []⟩,
        .addMethod "GtkBin" ⟨"add", true, [], [], "none", []⟩ rfl none,
        .addMethod "GtkBin" ⟨"Add", true, [], [], "none", []⟩ rfl none,
        .ensureClass "GtkBox", .ensureClass "GtkWidget"]
    let ns := Namespace.ofOperations operations
    let ns' := Namespace.ofOperations
      (operations ++ [.addMethod "GtkBin" (defaultConstructor "none") rfl (some "gtk_bin_new")])
    let text := "class Bin(Widget, Box):\n\n  def Add(self):\n    pass\n\n" ++
      "  def __init__(self):\n    \"\"\"Constructor\"\"\"\n    return self\n\n" ++
      "  def add(self):\n    pass"
    ∃ c c', ns.class? "GtkBin" = some c ∧ c.methods.get? constructorName = none ∧
      (∃ names methods, ListsBases ns c names ∧ ShowsMethods c methods) ∧
      renderClass ns c = text ∧ ns'.class? "GtkBin" = some c' ∧ renderClass ns' c' = text ∧
      render ns' = render ns := by
  intro operations ns ns' text
  have hshown : (ns.class? "GtkBin").map
      (fun c => (c.methods.contains constructorName, renderClass ns c)) = some (false, text) := by
    decide +kernel
  obtain ⟨c, hclass, hshown⟩ := Option.map_eq_some_iff.mp hshown
  obtain ⟨hmissing, htext⟩ := Prod.mk.inj hshown
  have hnew : c.methods.get? constructorName = none := by
    simpa [Table.contains] using hmissing
  obtain ⟨⟨names, methods, hbases, hmethods, -⟩, hstored⟩ :=
    renderClass_shows_constructor operations hclass
  obtain ⟨hclass', htext', hrender⟩ := hstored hnew "none" (some "gtk_bin_new")
  exact ⟨c, _, hclass, hnew, ⟨names, methods, hbases, hmethods⟩, htext, hclass',
    htext'.trans htext, hrender⟩

end Stub

end Stubgen
