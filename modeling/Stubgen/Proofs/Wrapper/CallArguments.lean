import Stubgen.Proofs.Text.Offset
import Stubgen.Proofs.Wrapper.Calls

/-!
# Arguments of a call

The arguments of a call stand between its opening parenthesis and the one that matches it, which is
where as many parentheses have been closed as were opened. Here the scan for them is also told in
byte positions, with every cut of the text and every step of the counter checked. The counter never
is to go below zero, no cut is out of bounds or inside a character, and what the scan finds is what
stands between the parentheses.
-/

namespace Stubgen.Wrapper

open Text (Brackets byteLength cutFirst? slice?)

/-- The text closes as many parentheses as it opens. -/
def IsEven (text : List Char) : Prop :=
  text.count ')' = text.count '('

/-- The text holds an opening parenthesis and the one that matches it: no opening one stands before,
and of all beginnings from the opening parenthesis on, the one up to the closing parenthesis is the
first that closes as many parentheses as it opens. -/
def HoldsCall (text inside : List Char) : Prop :=
  ∃ before rest, text = before ++ '(' :: (inside ++ ')' :: rest) ∧ '(' ∉ before ∧
    IsEven ('(' :: (inside ++ [')'])) ∧ ∀ front, front <+: inside → ¬IsEven ('(' :: front)

/-- The first opening parenthesis of the text is never matched: no beginning from there on closes as
many parentheses as it opens. -/
def HoldsOpenCall (text : List Char) : Prop :=
  ∃ before behind, text = before ++ '(' :: behind ∧ '(' ∉ before ∧
    ∀ front, front <+: behind → ¬IsEven ('(' :: front)

/-! ## The scan in byte positions -/

/-- What comes of a scan for the arguments of a call. -/
inductive CallScan where
  | ended (arguments? : Option (List Char))
  /-- The text was to be cut out of bounds or inside a character. -/
  | miscut
  /-- The counter was to go below zero. -/
  | underflow
  deriving DecidableEq

/-- Scans what is left of the text from the byte position `start` on. The characters that have been
passed take `offset` bytes, and `depth` parentheses are open. -/
def scanClosing (code : List Char) (start depth offset : Nat) : List Char → CallScan
  | [] => .ended none
  | c :: cs =>
    if c = '(' then scanClosing code start (depth + 1) (offset + c.utf8Size) cs
    else if c = ')' then
      match depth with
      | 0 => .underflow
      | 1 =>
        match slice? code (start + 1) (start + offset) with
        | none => .miscut
        | some inside => .ended (some inside)
      | depth + 2 => scanClosing code start (depth + 1) (offset + c.utf8Size) cs
    else scanClosing code start depth (offset + c.utf8Size) cs

/-- The scan for the arguments of the first call at or behind a byte position. -/
def scanCall (code : List Char) (pos : Nat) : CallScan :=
  match slice? code pos (byteLength code) with
  | none => .miscut
  | some text =>
    match (cutFirst? ['('] text).map fun cut => byteLength cut.1 with
    | none => .ended none
    | some found =>
      match slice? code (found + pos) (byteLength code) with
      | none => .miscut
      | some call => scanClosing code (found + pos) 0 0 call

variable {text inside front lead before behind : List Char} {depth : Nat}

/-! ## Matching parentheses -/

/-- An opening parenthesis before a text makes it even exactly if the text closes one more than it
opens. -/
theorem isEven_cons_iff : IsEven ('(' :: text) ↔ text.count ')' = text.count '(' + 1 := by
  have hcloses : ('(' :: text).count ')' = text.count ')' := List.count_cons_of_ne (by decide)
  have hopens : ('(' :: text).count '(' = text.count '(' + 1 := List.count_cons_self
  rw [IsEven, hcloses, hopens]

/-- One more character closes at most one parenthesis more. -/
theorem count_concat_le (text : List Char) (c : Char) :
    (text ++ [c]).count ')' ≤ text.count ')' + 1 ∧ text.count '(' ≤ (text ++ [c]).count '(' := by
  rw [List.count_append, List.count_append]
  have hone : [c].count ')' ≤ 1 := List.count_le_length
  omega

/-- A text nests behind an opening parenthesis if no beginning makes it even. -/
theorem nests_iff_not_even :
    Brackets.round.Nests 0 text ↔ ∀ front, front <+: text → ¬IsEven ('(' :: front) := by
  -- The beginnings grow by one character, so the counts do not get past each other unseen.
  constructor
  · intro h front hfront heven
    have hle : front.count ')' ≤ 0 + front.count '(' := h front hfront
    have heq := isEven_cons_iff.mp heven
    omega
  · intro h front hfront
    change front.count ')' ≤ 0 + front.count '('
    induction front using List.reverseRecOn with
    | nil => exact Nat.zero_le _
    | append_singleton front c ih =>
      have hle := ih ((List.prefix_append front [c]).trans hfront)
      have hne := mt isEven_cons_iff.mpr (h (front ++ [c]) hfront)
      have hstep := count_concat_le front c
      omega

/-- A text settles if the closing parenthesis behind it is the one that matches an opening one
before it. -/
theorem settles_iff_even :
    Brackets.round.Settles 0 text ↔
      IsEven ('(' :: (text ++ [')'])) ∧ ∀ front, front <+: text → ¬IsEven ('(' :: front) := by
  have heven : IsEven ('(' :: (text ++ [')'])) ↔ text.count ')' = 0 + text.count '(' := by
    have hcloses : (text ++ [')']).count ')' = text.count ')' + 1 := by
      rw [List.count_append]
      rfl
    have hopens : (text ++ [')']).count '(' = text.count '(' := by
      rw [List.count_append]
      rfl
    rw [isEven_cons_iff, hcloses, hopens]
    omega
  rw [heven, ← nests_iff_not_even]
  exact ⟨fun h => ⟨h.settled, h.nests⟩, fun h => ⟨h.2, h.1⟩⟩

/-- The arguments of a call are told by the text behind its opening parenthesis. -/
theorem callArguments?_append (hbefore : '(' ∉ before) (behind : List Char) :
    callArguments? (before ++ '(' :: behind) = untilClosed 0 behind := by
  rw [callArguments?, Text.cutFirst?_singleton hbefore]

/-- Without an opening parenthesis there is no call. -/
theorem callArguments?_of_notMem (h : '(' ∉ text) : callArguments? text = none := by
  rw [callArguments?, Text.cutFirst?_eq_none_of_notMem List.mem_cons_self h]

/-- A text without an opening parenthesis, or one that is cut at the first of them. -/
theorem notMem_or_exists_opening (text : List Char) :
    '(' ∉ text ∨ ∃ before behind, text = before ++ '(' :: behind ∧ '(' ∉ before := by
  by_cases h : '(' ∈ text
  · exact .inr (List.eq_append_cons_of_mem h)
  · exact .inl h

/-- The arguments that are found are those of a call. -/
theorem callArguments?_eq_some_iff : callArguments? text = some inside ↔ HoldsCall text inside := by
  constructor
  · intro h
    rcases notMem_or_exists_opening text with hnone | ⟨before, behind, rfl, hbefore⟩
    · exact nomatch (callArguments?_of_notMem hnone).symm.trans h
    · rw [callArguments?_append hbefore] at h
      obtain ⟨rest, rfl, hsettles⟩ := untilClosed_eq_some_iff.mp h
      exact ⟨before, rest, rfl, hbefore, settles_iff_even.mp hsettles⟩
  · rintro ⟨before, rest, rfl, hbefore, heven⟩
    rw [callArguments?_append hbefore]
    exact untilClosed_eq_some_iff.mpr ⟨rest, rfl, settles_iff_even.mpr heven⟩

/-- No arguments are found if there is no opening parenthesis or if it is never matched. -/
theorem callArguments?_eq_none_iff :
    callArguments? text = none ↔ '(' ∉ text ∨ HoldsOpenCall text := by
  constructor
  · intro h
    refine (notMem_or_exists_opening text).imp_right fun ⟨before, behind, htext, hbefore⟩ => ?_
    rw [htext, callArguments?_append hbefore, untilClosed_eq_none_iff] at h
    exact ⟨before, behind, htext, hbefore, nests_iff_not_even.mp h⟩
  · rintro (hnone | ⟨before, behind, rfl, hbefore, hopen⟩)
    · exact callArguments?_of_notMem hnone
    · rw [callArguments?_append hbefore, untilClosed_eq_none_iff]
      exact nests_iff_not_even.mpr hopen

/-! ## What comes of the scan -/

/-- Behind an opening parenthesis and a text of which all has been passed, the scan goes on to where
the call is closed, and cuts out what stands between the parentheses. -/
theorem scanClosing_eq (lead front : List Char) (depth : Nat) (text : List Char) :
    scanClosing (lead ++ '(' :: (front ++ text)) (byteLength lead) (depth + 1)
        (byteLength ('(' :: front)) text =
      .ended ((untilClosed depth text).map (front ++ ·)) := by
  -- One more character that is passed belongs to the text in front.
  have hpass (front cs : List Char) (c : Char) :
      lead ++ '(' :: (front ++ c :: cs) = lead ++ '(' :: ((front ++ [c]) ++ cs) := by
    rw [List.append_assoc front]
    rfl
  have hlength (front : List Char) (c : Char) :
      byteLength ('(' :: front) + c.utf8Size = byteLength ('(' :: (front ++ [c])) := by
    simp only [Text.byteLength_cons, Text.byteLength_append, Text.byteLength_nil]
    omega
  have hjoin (front : List Char) (c : Char) (found? : Option (List Char)) :
      (found?.map (c :: ·)).map (front ++ ·) = found?.map ((front ++ [c]) ++ ·) := by
    rw [Option.map_map]
    refine congrArg (Option.map · found?) (funext fun found => ?_)
    simp
  induction text generalizing front depth with
  | nil => rfl
  | cons c cs ih =>
    unfold scanClosing untilClosed
    split
    · rw [hpass, hlength, ih, hjoin]
    · split
      · next hclosed =>
        subst hclosed
        cases depth with
        | zero =>
          have hslice := Text.slice?_append (lead ++ ['(']) front (')' :: cs)
          have hcode : lead ++ ['('] ++ front ++ ')' :: cs =
              lead ++ '(' :: (front ++ ')' :: cs) := by simp
          have hstart : byteLength (lead ++ ['(']) = byteLength lead + 1 := by
            rw [Text.byteLength_append]
            rfl
          have hstop : byteLength lead + 1 + byteLength front =
              byteLength lead + byteLength ('(' :: front) := by
            rw [Text.byteLength_cons, Nat.add_assoc]
            rfl
          rw [hcode, hstart, hstop] at hslice
          dsimp only
          rw [hslice, Option.map_some, List.append_nil]
        | succ depth =>
          dsimp only
          rw [hpass, hlength, ih, hjoin]
      · rw [hpass, hlength, ih, hjoin]

/-- A text may be cut at the end of a beginning, and what follows is the rest. -/
theorem slice?_to_end (front rest : List Char) :
    slice? (front ++ rest) (byteLength front) (byteLength (front ++ rest)) = some rest := by
  have hslice := Text.slice?_append front rest []
  rwa [List.append_nil, ← Text.byteLength_append] at hslice

/-- From a boundary on, the scan ends with the arguments of the first call. -/
theorem scanCall_eq (front text : List Char) :
    scanCall (front ++ text) (byteLength front) = .ended (callArguments? text) := by
  rw [scanCall, slice?_to_end]
  dsimp only
  rcases notMem_or_exists_opening text with hnone | ⟨before, behind, rfl, hbefore⟩
  · rw [callArguments?_of_notMem hnone,
      Text.cutFirst?_eq_none_of_notMem List.mem_cons_self hnone]
    rfl
  · have hstart : byteLength before + byteLength front = byteLength (front ++ before) := by
      rw [Text.byteLength_append, Nat.add_comm]
    rw [Text.cutFirst?_singleton hbefore, callArguments?_append hbefore]
    dsimp only [Option.map_some]
    rw [hstart, ← List.append_assoc, slice?_to_end]
    have hclosing := scanClosing_eq (front ++ before) [] 0 behind
    rw [List.nil_append] at hclosing
    change scanClosing _ _ 1 (byteLength ['(']) behind = _
    rw [hclosing]
    exact congrArg CallScan.ended Option.map_id'

/-- In a parsing call, the opening parenthesis ends the name. -/
theorem callArguments?_parsingCall {call : ParsingCall}
    (hcall : call ∈ [keywordCall, positionalCall]) (behind : List Char) :
    callArguments? (call.name.toList ++ behind) = untilClosed 0 behind := by
  have hname : ∃ before, call.name.toList = before ++ ['('] ∧ '(' ∉ before := by
    rcases List.mem_pair.mp hcall with rfl | rfl
    · exact ⟨"PyArg_ParseTupleAndKeywords".toList, rfl, by decide⟩
    · exact ⟨"PyArg_ParseTuple".toList, rfl, by decide⟩
  obtain ⟨before, hname, hbefore⟩ := hname
  rw [hname, List.append_assoc]
  exact callArguments?_append hbefore behind

/-- From the end of every beginning of a text on, the scan comes to an end: it cuts the text at
boundaries and in bounds only, and it closes no parenthesis that was not opened. It finds what
stands between the first opening parenthesis and the one that matches it, and nothing if there is no
opening one or if it is never matched. This is what is taken for the arguments of a call, and those
of a parsing call are found behind its name. -/
theorem arguments_between_parentheses (front text : List Char) :
    let scanned := scanCall (front ++ text) (byteLength front)
    scanned = .ended (callArguments? text) ∧
      (∀ inside, scanned = .ended (some inside) ↔ HoldsCall text inside) ∧
      (scanned = .ended none ↔ '(' ∉ text ∨ HoldsOpenCall text) ∧
      ∀ call ∈ [keywordCall, positionalCall], ∀ behind,
        scanCall (front ++ (call.name.toList ++ behind)) (byteLength front) =
          .ended (untilClosed 0 behind) := by
  intro scanned
  have hscanned : scanned = .ended (callArguments? text) := scanCall_eq front text
  refine ⟨hscanned, fun inside => ?_, ?_, fun call hcall behind => ?_⟩
  · rw [hscanned, CallScan.ended.injEq]
    exact callArguments?_eq_some_iff
  · rw [hscanned, CallScan.ended.injEq]
    exact callArguments?_eq_none_iff
  · rw [scanCall_eq, callArguments?_parsingCall hcall]

/-- A closing parenthesis before the call and one behind it do not matter, and the text before the
call takes more bytes than it has characters. -/
example :
    scanCall "é) f(a, (b)) c)".toList 3 = .ended (some "a, (b)".toList) ∧
      scanCall "é) f(a, (b)) c)".toList 1 = .miscut ∧
      scanCall "é) f(a, (b) c".toList 3 = .ended none := by
  decide +kernel

end Stubgen.Wrapper
