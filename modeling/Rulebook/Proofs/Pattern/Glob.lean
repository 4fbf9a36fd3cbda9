import Mathlib.Data.List.Forall2
import Rulebook.Condition.Evaluation
import Rulebook.Proofs.Pattern.Matching

/-!
# Globs as patterns

A glob is not matched as it is written.  It is rewritten, character by character, as a pattern, the
pattern is read, and the nodes that come of it are matched.  This module follows the way from the
text of the glob to the texts that it covers.

The first half is about reading.  What a piece is read as could depend on what follows it, since a
mark of repetition changes the node in front of it and a lone backslash at the end is an error.  The
pieces of a glob are made so that this cannot happen (`continuesPiece_globTokens`): characters that
mean something are escaped, and what a star becomes ends with the one mark that is meant.  Hence the
pieces are read one by one, each as one node, and the reading never fails.

The second half is about matching.  A star may take any part of the text in front, so that the nodes
match exactly if *some* division of the text into pieces works, although the matcher goes through
the divisions in an order of its own.

## Main definitions

* `Reads` — reading succeeds with a value.
* `globNode` — the node that a character of a glob stands for.
* `Glob.Stands`, `Glob.Covers` — the language of globs, said without patterns.

## Main statements

* `parse_globPattern` — every glob is rewritten as a pattern that can be read.
* `globCovers_iff` — the rewritten glob matches exactly the language of the glob.
* `wildcard_iff_covers` — the same for conditions.
-/

namespace Rulebook

namespace Pattern

open Reader

/-! ## Reading -/

/-- Reading from a state succeeds with a value and leaves a state. -/
def Reads {α : Type} (r : Reader α) (s : ReaderState) (a : α) (after : ReaderState) : Prop :=
  r.run s = .ok (a, after)

section Reading

variable {α β : Type} {s after : ReaderState} {t : Token} {ts : List Token} {c : Char}

theorem Reads.pure (a : α) (s : ReaderState) : Reads (pure a) s a s := rfl

theorem Reads.bind {r : Reader α} {f : α → Reader β} {a : α} {b : β} {between : ReaderState}
    (hr : Reads r s a between) (hf : Reads (f a) between b after) : Reads (r >>= f) s b after := by
  rw [Reads, StateT.run_bind, show r.run s = _ from hr]
  exact hf

theorem reads_peek (s : ReaderState) : Reads peek s s.rest.head? s := rfl

theorem reads_refuseDangling (h : s.rest.head? ≠ some .dangling) :
    Reads refuseDangling s () s := by
  refine .bind (a := s) rfl ?_
  rw [if_neg h]
  exact .pure () s

theorem reads_take (hrest : s.rest = t :: ts) (h : ts.head? ≠ some .dangling) :
    Reads take s (some t) { s with rest := ts } := by
  have hpeek := reads_peek s
  rw [hrest] at hpeek
  refine hpeek.bind (.bind (a := ()) ?_ ((reads_refuseDangling (s := { s with rest := ts }) h).bind
    (.pure _ _)))
  rw [Reads, show ts = s.rest.drop 1 by rw [hrest]; rfl]
  rfl

theorem reads_accept_of_ne (h : s.rest.head? ≠ some (.plain c)) :
    Reads (accept c) s false s := by
  refine (reads_peek s).bind ?_
  rw [if_neg h]
  exact .pure _ _

variable {fuel room : Nat} {first : Bool} {done nodes : List Node}

theorem reads_readSequence_nil (hrest : s.rest = []) :
    Reads (readSequence (fuel + 1) room first false done) s (unwrapGroups done.reverse) s := by
  rw [readSequence]
  refine (reads_peek s).bind ?_
  rw [hrest, if_pos (by simp)]
  exact .pure _ _

theorem Reads.escape (hrest : s.rest = .escape c :: ts) (hts : ts.head? ≠ some .dangling)
    {node : Node} (hc : Reads (readEscape c) { s with rest := ts } node { s with rest := ts })
    (hnext : Reads (readSequence fuel room first false (node :: done)) { s with rest := ts } nodes
      after) :
    Reads (readSequence (fuel + 1) room first false done) s nodes after := by
  rw [readSequence]
  refine (reads_peek s).bind ?_
  rw [hrest, if_neg (by simp)]
  exact (reads_take hrest hts).bind (hc.bind hnext)

theorem Reads.dot (hrest : s.rest = .plain '.' :: ts) (hts : ts.head? ≠ some .dangling)
    (hnext : Reads (readSequence fuel room first false (.anyChar :: done)) { s with rest := ts }
      nodes after) :
    Reads (readSequence (fuel + 1) room first false done) s nodes after := by
  rw [readSequence]
  refine (reads_peek s).bind ?_
  rw [hrest, if_neg (by simp)]
  exact (reads_take hrest hts).bind hnext

/-- A star repeats the node read last. -/
theorem Reads.star (hrest : s.rest = .plain '*' :: ts) (hts : ts.head? ≠ some .dangling)
    (hlazy : ts.head? ≠ some (.plain '?')) (hpossessive : ts.head? ≠ some (.plain '+'))
    (hnext : Reads
      (readSequence fuel room first false (.repetition .greedy 0 none [.anyChar] :: done))
      { s with rest := ts } nodes after) :
    Reads (readSequence (fuel + 1) room first false (.anyChar :: done)) s nodes after := by
  rw [readSequence]
  refine (reads_peek s).bind ?_
  rw [hrest, if_neg (by simp)]
  refine (reads_take hrest hts).bind ?_
  have hrepeat : Reads (repeatLast 0 none (.anyChar :: done)) { s with rest := ts }
      (.repetition .greedy 0 none [.anyChar] :: done) { s with rest := ts } := by
    refine .bind (.pure [Node.anyChar] _) ?_
    refine (reads_accept_of_ne hlazy).bind ((reads_accept_of_ne hpossessive).bind ?_)
    exact .pure _ _
  exact .bind (.pure (some (0, none)) _) (hrepeat.bind hnext)

/-- A character that means nothing to patterns stands for itself. -/
theorem Reads.plain (hrest : s.rest = .plain c :: ts) (hts : ts.head? ≠ some .dangling)
    (hc : c ∉ specialChars)
    (hnext : Reads (readSequence fuel room first false (.code c.toNat :: done))
      { s with rest := ts } nodes after) :
    Reads (readSequence (fuel + 1) room first false done) s nodes after := by
  have hne : ∀ d ∈ specialChars, c ≠ d := fun d hd h => hc (h ▸ hd)
  rw [readSequence]
  refine (reads_peek s).bind ?_
  rw [hrest, if_neg ?_]
  · refine (reads_take hrest hts).bind ?_
    dsimp only
    simp only [Bool.false_and, Bool.false_eq_true, if_false]
    rw [if_neg (hne _ (by decide)), if_neg ?_, if_neg (hne _ (by decide)),
      if_neg (hne _ (by decide)), if_neg (hne _ (by decide)), if_neg (hne _ (by decide))]
    · exact hnext
    · simp [hne '*' (by decide), hne '+' (by decide), hne '?' (by decide), hne '\x7b' (by decide)]
  · simp [hne '|' (by decide), hne ')' (by decide)]

/-- An escaped character that may mean something stands for itself. -/
theorem reads_readEscape (hc : c ∈ specialChars) : Reads (readEscape c) s (.code c.toNat) s := by
  have hwords : ∀ c ∈ specialChars, edgeEscape? c = none ∧ categoryEscape? c = none ∧
      hexLength? c = none ∧ (controlEscape? c).getD c.toNat = c.toNat ∧
      c ≠ '0' ∧ isDigitChar c = false ∧ isLetterChar c = false :=
    List.forall_iff_forall_mem.1 (by decide)
  obtain ⟨hedge, hcategory, hhex, hcontrol, hzero, hdigit, hletter⟩ := hwords c hc
  rw [readEscape, hedge, hcategory, hhex]
  rcases h : controlEscape? c with _ | code <;> rw [h] at hcontrol
  · simp only [hzero, hdigit, hletter, if_false, Bool.false_eq_true]
    exact .pure _ _
  · obtain rfl : code = c.toNat := hcontrol
    exact .pure _ _

end Reading

/-! ## The pieces of a glob -/

/-- A character of a glob is a star, a question mark, or a letter that stands for itself. -/
inductive GlobChar : Char → Prop where
  | star : GlobChar '*'
  | mark : GlobChar '?'
  | letter {c : Char} (hstar : c ≠ '*') (hmark : c ≠ '?') : GlobChar c

theorem globChar (c : Char) : GlobChar c := by
  by_cases hstar : c = '*'
  · exact hstar ▸ .star
  · by_cases hmark : c = '?'
    · exact hmark ▸ .mark
    · exact .letter hstar hmark

/-- The node that a character of a glob stands for. -/
def globNode (c : Char) : Node :=
  if c = '*' then .repetition .greedy 0 none [.anyChar]
  else if c = '?' then .anyChar
  else .code c.toNat

/-- The tokens of the piece of one character of a glob. -/
def globTokens (c : Char) : List Token :=
  if c = '*' then [.plain '.', .plain '*']
  else if c = '?' then [.plain '.']
  else if c ∈ specialChars then [.escape c]
  else [.plain c]

section Pieces

variable {s after : ReaderState} {fuel room : Nat} {first : Bool} {done nodes : List Node}
  {c : Char}
  {ts : List Token}

theorem globNode_letter (hstar : c ≠ '*') (hmark : c ≠ '?') : globNode c = .code c.toNat := by
  simp [globNode, hstar, hmark]

theorem globTokens_special (hstar : c ≠ '*') (hmark : c ≠ '?') (hc : c ∈ specialChars) :
    globTokens c = [.escape c] := by
  simp [globTokens, hstar, hmark, hc]

theorem globTokens_plain (hstar : c ≠ '*') (hmark : c ≠ '?') (hc : c ∉ specialChars) :
    globTokens c = [.plain c] := by
  simp [globTokens, hstar, hmark, hc]

theorem tokens_plain (hc : c ≠ '\\') (rest : List Char) :
    tokens (c :: rest) = .plain c :: tokens rest := by
  rw [tokens] <;> simp [hc]

theorem tokens_globPattern (glob : List Char) :
    tokens (globPattern glob) = glob.flatMap globTokens := by
  induction glob with
  | nil => rfl
  | cons c glob ih =>
    show tokens (globPiece c ++ globPattern glob) = globTokens c ++ glob.flatMap globTokens
    rw [← ih]
    cases globChar c with
    | star =>
      show tokens ('.' :: '*' :: globPattern glob) = _
      rw [tokens_plain (by decide), tokens_plain (by decide)]
      rfl
    | mark =>
      show tokens ('.' :: globPattern glob) = _
      rw [tokens_plain (by decide)]
      rfl
    | letter hstar hmark =>
      by_cases hc : c ∈ specialChars
      · rw [globTokens_special hstar hmark hc]
        simp [globPiece, escaped, hstar, hmark, hc, tokens]
      · have hbackslash : c ≠ '\\' := fun h => hc (h ▸ by decide)
        rw [globTokens_plain hstar hmark hc]
        simp [globPiece, escaped, hstar, hmark, hc, tokens_plain hbackslash]

/-- What must not follow a piece: it would change the piece, or could not be read. -/
def continuesPiece (t : Token) : Bool := t = .dangling || t = .plain '?' || t = .plain '+'

/-- The pieces of a glob keep apart. -/
theorem continuesPiece_globTokens (glob : List Char) :
    (glob.flatMap globTokens).head?.any continuesPiece = false := by
  cases glob with
  | nil => rfl
  | cons c glob =>
    rw [List.flatMap_cons]
    cases globChar c with
    | star | mark => rfl
    | letter hstar hmark =>
      by_cases hc : c ∈ specialChars
      · rw [globTokens_special hstar hmark hc]
        simp [continuesPiece]
      · have hplus : c ≠ '+' := fun h => hc (h ▸ by decide)
        rw [globTokens_plain hstar hmark hc]
        simp [continuesPiece, hmark, hplus]

/-- The piece of a character is read as its node. -/
theorem Reads.piece (hrest : s.rest = globTokens c ++ ts)
    (hfront : ts.head?.any continuesPiece = false)
    (hnext : Reads (readSequence fuel room first false (globNode c :: done))
      { s with rest := ts } nodes after) :
    Reads (readSequence (fuel + (globTokens c).length) room first false done) s nodes after := by
  have hts : ∀ t, continuesPiece t = true → ts.head? ≠ some t := by
    intro t ht h
    rw [h, Option.any_some, ht] at hfront
    cases hfront
  have hdangling := hts .dangling rfl
  cases globChar c with
  | star => exact .dot hrest (by simp) (.star rfl hdangling (hts _ rfl) (hts _ rfl) hnext)
  | mark => exact .dot hrest hdangling hnext
  | letter hstar hmark =>
    rw [globNode_letter hstar hmark] at hnext
    by_cases hc : c ∈ specialChars
    · rw [globTokens_special hstar hmark hc] at hrest ⊢
      exact .escape hrest hdangling (reads_readEscape hc) hnext
    · rw [globTokens_plain hstar hmark hc] at hrest ⊢
      exact .plain hrest hdangling hc hnext

/-- A rewritten glob is read as the nodes of its characters. -/
theorem reads_glob (first : Bool) (glob : List Char) (fuel room : Nat) : ∀ (done : List Node)
    (s : ReaderState), s.rest = glob.flatMap globTokens →
      Reads (readSequence (fuel + 1 + (glob.flatMap globTokens).length) room first false done) s
        (unwrapGroups (done.reverse ++ glob.map globNode)) { s with rest := [] } := by
  induction glob with
  | nil =>
    intro done s hrest
    have hnil : s = { s with rest := [] } := by
      rw [← show s.rest = [] from hrest]
    rw [List.map_nil, List.append_nil, ← hnil]
    exact reads_readSequence_nil hrest
  | cons c glob ih =>
    intro done s hrest
    have hread := ih (globNode c :: done) { s with rest := glob.flatMap globTokens } rfl
    rw [List.reverse_cons, List.append_assoc] at hread
    rw [List.flatMap_cons, List.length_append, Nat.add_comm (globTokens c).length, ← Nat.add_assoc]
    exact .piece hrest (continuesPiece_globTokens glob) hread

theorem unwrapGroups_globNodes (glob : List Char) :
    unwrapGroups (glob.map globNode) = glob.map globNode := by
  induction glob with
  | nil => rfl
  | cons c glob ih =>
    have hnode : unwrapGroups [globNode c] = [globNode c] := by
      cases globChar c with
      | star | mark => rfl
      | letter hstar hmark => rw [globNode_letter hstar hmark]; rfl
    calc unwrapGroups ((c :: glob).map globNode)
        = unwrapGroups [globNode c] ++ unwrapGroups (glob.map globNode) := by simp [unwrapGroups]
      _ = (c :: glob).map globNode := by rw [hnode, ih]; rfl

/-- A rewritten glob has no alternatives. -/
theorem reads_readAlternatives (glob : List Char) (fuel room : Nat)
    (hrest : s.rest = glob.flatMap globTokens) :
    Reads (readAlternatives (fuel + 1 + (glob.flatMap globTokens).length + 1) room true false) s
      (glob.map globNode) { s with rest := [] } := by
  have hsequence := reads_glob true glob fuel room [] s hrest
  rw [List.reverse_nil, List.nil_append, unwrapGroups_globNodes] at hsequence
  rw [readAlternatives]
  exact hsequence.bind ((reads_accept_of_ne (by simp)).bind (.pure _ _))

/-- The nodes of a glob are a single level, and a star has one more. -/
theorem translationFault?_globNodes (glob : List Char) (room : Nat) :
    translationFault? [none] false (room + 1) (glob.map globNode) = none := by
  induction glob with
  | nil => rfl
  | cons c glob ih =>
    have hnode : (globNode c).translationFault? [none] false (room + 1) = none := by
      cases globChar c with
      | star | mark => rfl
      | letter hstar hmark => rw [globNode_letter hstar hmark]; rfl
    rw [List.map_cons, translationFault?, hnode, ih]
    rfl

/-- Every glob is rewritten as a pattern that can be read, and it is read as the nodes of its
characters. -/
theorem parse_globPattern [Host] (caseSensitive : Bool) (glob : List Char) :
    parse (globOptions caseSensitive) (globPattern glob) =
      .ok ⟨globOptions caseSensitive, [none], glob.map globNode⟩ := by
  have hfront : (tokens (globPattern glob)).head? ≠ some .dangling := by
    intro h
    have hpiece := continuesPiece_globTokens glob
    rw [← tokens_globPattern, h] at hpiece
    cases hpiece
  have hfuel : 4 * (tokens (globPattern glob)).length + 8 =
      (3 * (tokens (globPattern glob)).length + 6) + 1 + (glob.flatMap globTokens).length + 1 := by
    rw [← tokens_globPattern]
    omega
  let start : ReaderState :=
    ⟨tokens (globPattern glob), globOptions caseSensitive, [], [none], none, []⟩
  have hbody : Reads (within groupSize (Host.room .groups)
      (readAlternatives (4 * (tokens (globPattern glob)).length + 8) · true false)) start
      (glob.map globNode) { start with rest := [] } := by
    rw [within, if_neg (Nat.not_lt.2 (Nat.le_trans (by decide) (Host.enough .groups))), hfuel]
    exact reads_readAlternatives glob _ _ (tokens_globPattern glob)
  unfold parse
  extract_lets toks first reading
  have hreading : Reads reading start (glob.map globNode) { start with rest := [] } :=
    (reads_refuseDangling hfront).bind (hbody.bind rfl)
  rw [show reading.run first = _ from hreading]
  obtain ⟨room, hroom⟩ : ∃ room, Host.room .pattern = room + 2 :=
    ⟨Host.room .pattern - 2, by have := Host.enough .pattern; omega⟩
  have hfault : levelFault? (Host.room .pattern)
      (translationFault? [none] false · (glob.map globNode)) = none := by
    rw [hroom]
    exact translationFault?_globNodes glob room
  dsimp only [Bind.bind, Except.bind]
  split
  · rfl
  · next hsome => cases hfault.symm.trans hsome

end Pieces

/-! ## Matching -/

namespace Glob

/-- Two characters that count as the same. -/
def SameCharacter (caseSensitive : Bool) (p c : Char) : Prop :=
  if caseSensitive then p = c else Folding.unicode.sameLetter p.toNat c.toNat = true

/-- What a character of a glob stands for. -/
inductive Stands (caseSensitive : Bool) : Char → List Char → Prop where
  | anyText (piece : List Char) : Stands caseSensitive '*' piece
  | anyChar (c : Char) : Stands caseSensitive '?' [c]
  | letter {p c : Char} (hstar : p ≠ '*') (hmark : p ≠ '?')
      (hsame : SameCharacter caseSensitive p c) : Stands caseSensitive p [c]

/-- The text can be divided into consecutive pieces, one for each character of the glob. -/
def Covers (caseSensitive : Bool) (glob text : List Char) : Prop :=
  ∃ pieces, List.Forall₂ (Stands caseSensitive) glob pieces ∧ text = pieces.flatten

variable {caseSensitive : Bool} {glob text : List Char} {widths : GroupWidths}

theorem covers_nil : Covers caseSensitive [] text ↔ text = [] := by
  constructor
  · rintro ⟨pieces, hpieces, rfl⟩
    cases hpieces
    rfl
  · rintro rfl
    exact ⟨[], .nil, rfl⟩

theorem covers_cons {c : Char} :
    Covers caseSensitive (c :: glob) text ↔
      ∃ piece rest, Stands caseSensitive c piece ∧ Covers caseSensitive glob rest ∧
        text = piece ++ rest := by
  constructor
  · rintro ⟨pieces, hpieces, rfl⟩
    cases hpieces with
    | cons hpiece hrest => exact ⟨_, _, hpiece, ⟨_, hrest, rfl⟩, rfl⟩
  · rintro ⟨piece, _, hpiece, ⟨pieces, hpieces, rfl⟩, rfl⟩
    exact ⟨piece :: pieces, .cons hpiece hpieces, rfl⟩

theorem sameLetter_exact (a b : Nat) : Folding.exact.sameLetter a b = (b == a) := by
  simp [Folding.sameLetter, Folding.lower, Folding.siblings]

theorem holds_code_iff {p c : Char} :
    (Node.code p.toNat).holds (globOptions caseSensitive) c.toNat = true ↔
      SameCharacter caseSensitive p c := by
  cases caseSensitive with
  | false => rfl
  | true =>
    change Folding.exact.sameLetter p.toNat c.toNat = true ↔ p = c
    rw [sameLetter_exact, beq_iff_eq, Char.toNat_inj, eq_comm]

/-- One node of a glob matches the pieces for which its character stands. -/
theorem explores_globNode (p : Char) :
    Explores (matchNode widths (subjectOf text) (globOptions caseSensitive) (globNode p))
      (fun s next => ∃ piece rest, text.drop s.position = piece ++ rest ∧
        Stands caseSensitive p piece ∧ next = s.advance piece.length) := by
  have hhead : ∀ {s : Spot} {c : Char}, text[s.position]? = some c →
      ∃ rest, text.drop s.position = [c] ++ rest := by
    intro s c hc
    obtain ⟨h, rfl⟩ := List.getElem?_eq_some_iff.1 hc
    exact ⟨_, List.drop_eq_getElem_cons h⟩
  have hfirst : ∀ {s : Spot} {c : Char} {rest : List Char}, text.drop s.position = [c] ++ rest →
      text[s.position]? = some c := by
    intro s c rest hsplit
    rw [← List.head?_drop, hsplit]
    rfl
  cases globChar p with
  | star =>
    -- Every character may be part of the run, line breaks too.
    have hrun : ∀ position, runFrom (globOptions caseSensitive) .anyChar text position =
        text.drop position := fun _ => List.takeWhile_eq_self_iff.2 fun _ _ => rfl
    refine (explores_many rfl).congr fun s next => ?_
    rw [hrun]
    constructor
    · rintro ⟨n, hn, rfl⟩
      refine ⟨_, _, (List.take_append_drop n _).symm, .anyText _, ?_⟩
      rw [List.length_take_of_le hn]
    · rintro ⟨piece, rest, hsplit, -, rfl⟩
      refine ⟨piece.length, ?_, rfl⟩
      simp [hsplit]
  | mark =>
    refine (explores_unit (show Node.anyChar.isUnit = true from rfl)).congr fun s next => ?_
    constructor
    · rintro ⟨c, hc, -, rfl⟩
      obtain ⟨rest, hrest⟩ := hhead hc
      exact ⟨[c], rest, hrest, .anyChar c, rfl⟩
    · rintro ⟨piece, rest, hsplit, hpiece, rfl⟩
      cases hpiece with
      | anyChar c => exact ⟨c, hfirst hsplit, rfl, rfl⟩
      | letter _ hmark => exact (hmark rfl).elim
  | letter hstar hmark =>
    rw [globNode_letter hstar hmark]
    refine (explores_unit rfl).congr fun s next => ?_
    constructor
    · rintro ⟨c, hc, hsame, rfl⟩
      obtain ⟨rest, hrest⟩ := hhead hc
      exact ⟨[c], rest, hrest, .letter hstar hmark (holds_code_iff.1 hsame), rfl⟩
    · rintro ⟨piece, rest, hsplit, hpiece, rfl⟩
      cases hpiece with
      | anyText => exact (hstar rfl).elim
      | anyChar => exact (hmark rfl).elim
      | letter _ _ hsame => exact ⟨_, hfirst hsplit, holds_code_iff.2 hsame, rfl⟩

/-- The nodes of a glob match the parts that the glob covers, whatever is to follow. -/
theorem explores_globNodes (glob : List Char) :
    Explores (matchSequence widths (subjectOf text) (globOptions caseSensitive) (glob.map globNode))
      (fun s next => ∃ part rest, text.drop s.position = part ++ rest ∧
        Covers caseSensitive glob part ∧ next = s.advance part.length) := by
  induction glob with
  | nil =>
    refine explores_nil.congr fun s next => ?_
    constructor
    · rintro rfl
      exact ⟨[], _, rfl, covers_nil.2 rfl, rfl⟩
    · rintro ⟨part, rest, -, hpart, rfl⟩
      rw [covers_nil.1 hpart]
      rfl
  | cons p glob ih =>
    refine (explores_cons (explores_globNode p) ih).congr fun s next => ?_
    constructor
    · rintro ⟨_, ⟨piece, after, hsplit, hpiece, rfl⟩, part, rest, hafter, hpart, rfl⟩
      rw [Spot.position_advance, ← List.drop_drop, hsplit, List.drop_left] at hafter
      refine ⟨piece ++ part, rest, ?_, covers_cons.2 ⟨piece, part, hpiece, hpart, rfl⟩, ?_⟩
      · rw [hsplit, hafter, List.append_assoc]
      · rw [Spot.advance_advance, List.length_append]
    · rintro ⟨_, rest, hsplit, hcovers, rfl⟩
      obtain ⟨piece, part, hpiece, hpart, rfl⟩ := covers_cons.1 hcovers
      rw [List.append_assoc] at hsplit
      refine ⟨_, ⟨piece, part ++ rest, hsplit, hpiece, rfl⟩, part, rest, ?_, hpart, ?_⟩
      · rw [Spot.position_advance, ← List.drop_drop, hsplit, List.drop_left]
      · rw [Spot.advance_advance, List.length_append]

end Glob

/-- A glob covers exactly the texts that can be divided into pieces for which its characters
stand. -/
theorem globCovers_iff [Host] {caseSensitive : Bool} {glob : List Char} {s : String} :
    globCovers caseSensitive glob s = true ↔ Glob.Covers caseSensitive glob s.toList := by
  rw [globCovers, parse_globPattern]
  show (matchSequence _ (subjectOf s.toList) (globOptions caseSensitive) (glob.map globNode) ⟨0, []⟩
    _).isSome = true ↔ _
  rw [(Glob.explores_globNodes glob).isSome_iff]
  constructor
  · rintro ⟨_, ⟨part, rest, hsplit, hcovers, rfl⟩, hend⟩
    -- The match may only stop at the end, so nothing is left after the part.
    have hlength : part.length = s.toList.length := by
      by_contra h
      simp [h] at hend
    rw [List.drop_zero] at hsplit
    have hrest : rest = [] := by
      rw [hsplit, List.length_append] at hlength
      exact List.length_eq_zero_iff.1 (by omega)
    rwa [hsplit, hrest, List.append_nil]
  · intro hcovers
    exact ⟨_, ⟨s.toList, [], by simp, hcovers, rfl⟩, by simp⟩

end Pattern

theorem matchGlob_iff [Host] (actual : FieldValue) (expected : String) (caseSensitive : Bool) :
    ∃ matched, matchGlob actual expected caseSensitive = .of matched ∧
      (matched = true ↔ expected ≠ "" ∧ actual ≠ .absent ∧
        ∃ s ∈ actual.texts, Pattern.Glob.Covers caseSensitive expected.toList s.toList) := by
  rw [matchGlob]
  split
  · next hnothing =>
    rw [Bool.or_eq_true, decide_eq_true_eq, decide_eq_true_eq] at hnothing
    refine ⟨false, rfl, iff_of_false Bool.false_ne_true ?_⟩
    rintro ⟨hexpected, hpresent, -⟩
    exact hnothing.elim hpresent hexpected
  · next hsomething =>
    rw [Bool.or_eq_true, decide_eq_true_eq, decide_eq_true_eq, not_or] at hsomething
    refine ⟨_, rfl, ?_⟩
    simp [anyText, Pattern.globCovers_iff, hsomething]

/-- The wildcard operator never fails and has no complaint.  It matches exactly if the pattern is
not empty and one of the texts of the value can be divided into consecutive pieces, one for each
character of the pattern: any text for a star, one character for a question mark, and one character
that counts as the same for any other. -/
theorem wildcard_iff_covers [Host] (kind : ValueKind) (actual : FieldValue) (expected : String)
    (caseSensitive : Bool) :
    ∃ matched, evaluate .wildcard kind actual expected caseSensitive = .ok (.of matched) ∧
      (matched = true ↔ expected ≠ "" ∧ actual ≠ .absent ∧
        ∃ s ∈ actual.texts, Pattern.Glob.Covers caseSensitive expected.toList s.toList) := by
  obtain ⟨matched, hmatched, hiff⟩ := matchGlob_iff actual expected caseSensitive
  refine ⟨matched, ?_, hiff⟩
  rw [evaluate, hmatched]

end Rulebook
