/-
The words of a token stream and the blanks between them.

A stream is a list of atoms: the code points of its literals, and its other tokens. Splitting it into words takes runs
of blanks out of it and nothing else. `Spaced` puts the runs back: blanks in front, and behind each word the blanks up
to the next one. `Layout` says that a row of words is spaced out properly.

`splitWords_layout`: the words of every stream have a layout whose atoms are those of the stream. The splitter reads the
stream from the right; `Pending` is what it knows at each point, and `put_pending` that a token keeps it. A literal is
read from blank to blank (`blank_induction`).
-/
import PercentLiteral.Words
import Mathlib.Data.List.TakeWhile

namespace PercentLiteral

/-- an indivisible part of a token stream: a code point of a literal, or any other token -/
inductive Atom where
  | char (c : CodePoint)
  | escape (raw value : Text) (start : Int)
  | interpolation (expression : Text) (start : Int)
  deriving DecidableEq, Repr

/-- the atoms of a token -/
def Token.atoms : Token → List Atom
  | literal s _ => s.map .char
  | escape r v p => [.escape r v p]
  | interpolation e p => [.interpolation e p]

/-- blanks, then items each with the blanks behind it -/
structure Spaced (α : Type) where
  lead : Text
  parts : List (α × Text)

namespace Spaced

variable {α β : Type}

/-- the items -/
def items (k : Spaced α) : List α := k.parts.map Prod.fst

/-- the blanks behind the items -/
def gaps (k : Spaced α) : List Text := k.parts.map Prod.snd

/-- other items with the same blanks -/
def map (f : α → β) (k : Spaced α) : Spaced β := ⟨k.lead, k.parts.map fun p => (f p.1, p.2)⟩

/-- the text of spaced texts -/
def text (k : Spaced Text) : Text := k.lead ++ k.parts.flatMap fun p => p.1 ++ p.2

/-- the atoms of spaced words -/
def atoms (k : Spaced Word) : List Atom :=
  k.lead.map .char ++ k.parts.flatMap fun p => p.1.flatMap Token.atoms ++ p.2.map .char

/-- blanks are blank, and there are some between neighbours -/
structure Proper (k : Spaced α) : Prop where
  lead : ∀ c ∈ k.lead, c.isSpace
  gaps : ∀ g ∈ k.gaps, ∀ c ∈ g, c.isSpace
  between : ∀ g ∈ k.gaps.dropLast, g ≠ []

end Spaced

namespace Words

/-- literals in a word are not empty and hold no blank -/
def Pieces (w : Word) : Prop := ∀ s p, .literal s p ∈ w → s ≠ [] ∧ ∀ c ∈ s, c.isSpace = false

/-- words spaced out: none is empty, and blanks stand outside -/
structure Layout (ws : List Word) (k : Spaced Word) : Prop where
  words : k.items = ws
  proper : k.Proper
  filled : ∀ w ∈ ws, w ≠ []
  pieces : ∀ w ∈ ws, Pieces w

/-- what stands behind the open word of a partition, which is parted from it by a blank unless it is blank itself -/
structure Pending (p : Partition) (k : Spaced Word) : Prop where
  behind : Layout p.later k
  lead : k.parts ≠ [] → k.lead ≠ []
  pieces : Pieces p.first

/-- closing the open word gives a layout of all words -/
theorem Pending.close {p : Partition} {k : Spaced Word} (h : Pending p k) :
    ∃ k', Layout p.words k' ∧ k'.atoms = p.first.flatMap Token.atoms ++ k.atoms := by
  by_cases hfirst : p.first = []
  · refine ⟨k, ?_, by simp [hfirst]⟩
    rw [Partition.words, if_pos hfirst]
    exact h.behind
  · refine ⟨⟨[], (p.first, k.lead) :: k.parts⟩, ?_, by simp [Spaced.atoms]⟩
    rw [Partition.words, if_neg hfirst]
    refine ⟨?_, ⟨by simp, ?_, ?_⟩, ?_, ?_⟩
    · rw [← h.behind.words]
      rfl
    · exact List.forall_mem_cons.2 ⟨h.behind.proper.lead, h.behind.proper.gaps⟩
    · intro g hg
      change g ∈ (k.lead :: k.gaps).dropLast at hg
      by_cases hgaps : k.gaps = []
      · simp [hgaps] at hg
      · rw [List.dropLast_cons_of_ne_nil hgaps] at hg
        rcases List.mem_cons.1 hg with rfl | hg
        · exact h.lead (by simpa [Spaced.gaps] using hgaps)
        · exact h.behind.proper.between g hg
    · exact List.forall_mem_cons.2 ⟨hfirst, h.behind.filled⟩
    · exact List.forall_mem_cons.2 ⟨h.pieces, h.behind.pieces⟩

/-- a blank closes the open word and opens another -/
theorem Layout.blank {ws : List Word} {k : Spaced Word} (h : Layout ws k) {c : CodePoint} (hc : c.isSpace = true)
    {w : Word} (hw : Pieces w) : Pending ⟨w, ws⟩ ⟨c :: k.lead, k.parts⟩ where
  behind := ⟨h.words, ⟨List.forall_mem_cons.2 ⟨hc, h.proper.lead⟩, h.proper.gaps, h.proper.between⟩, h.filled, h.pieces⟩
  lead := by simp
  pieces := hw

/-- the word that a literal's first piece begins, if there is one -/
def opening (start : Int) (piece : Text) : Word := if piece = [] then [] else [.literal piece start]

theorem opening_atoms (start : Int) (piece : Text) : (opening start piece).flatMap Token.atoms = piece.map .char := by
  unfold opening
  split
  · simp_all
  · simp [Token.atoms]

theorem opening_pieces (start : Int) {s : Text} (hs : ∀ c ∈ s, c.isSpace = false) {w : Word} (hw : Pieces w) :
    Pieces (opening start s ++ w) := by
  intro s' p hmem
  rcases List.mem_append.1 hmem with hmem | hmem
  · unfold opening at hmem
    split at hmem
    · cases hmem
    · rename_i hne
      cases List.mem_singleton.1 hmem
      exact ⟨hne, hs⟩
  · exact hw s' p hmem

/-! ## Literals, from blank to blank -/

/-- a text is without blanks, or has a first one -/
theorem plain_or_blank (t : Text) :
    (∀ c ∈ t, c.isSpace = false) ∨
      ∃ s c rest, t = s ++ c :: rest ∧ (∀ d ∈ s, d.isSpace = false) ∧ c.isSpace = true := by
  induction t with
  | nil => exact Or.inl (by simp)
  | cons c t ih =>
    cases hc : c.isSpace with
    | true => exact Or.inr ⟨[], c, t, rfl, by simp, hc⟩
    | false =>
      rcases ih with hplain | ⟨s, d, rest, rfl, hs, hd⟩
      · exact Or.inl (List.forall_mem_cons.2 ⟨hc, hplain⟩)
      · exact Or.inr ⟨c :: s, d, rest, rfl, List.forall_mem_cons.2 ⟨hc, hs⟩, hd⟩

/-- **From blank to blank.** What holds of texts without blanks, and of a text up to a blank if it holds of the text
behind it, holds of every text. The splitter reads literals in this way. -/
@[elab_as_elim]
theorem blank_induction {motive : Int → Text → Prop}
    (plain : ∀ start s, (∀ c ∈ s, c.isSpace = false) → motive start s)
    (blank : ∀ start s c rest, (∀ d ∈ s, d.isSpace = false) → c.isSpace = true →
      motive (start + s.length + 1) rest → motive start (s ++ c :: rest))
    (start : Int) (t : Text) : motive start t := by
  -- by induction on the length: what is left behind the first blank is shorter
  induction hn : t.length using Nat.strongRecOn generalizing start t with
  | ind n ih =>
    rcases plain_or_blank t with hplain | ⟨s, c, rest, rfl, hs, hc⟩
    · exact plain start t hplain
    · have hlength : rest.length < n := by
        rw [← hn, List.length_append, List.length_cons]
        omega
      exact blank start s c rest hs hc (ih rest.length hlength _ rest rfl)

theorem isPlain_iff {c : CodePoint} : isPlain c = true ↔ c.isSpace = false := by
  rw [isPlain, Bool.not_eq_true']

theorem putLiteral_plain {s : Text} (hs : ∀ c ∈ s, c.isSpace = false) (start : Int) (p : Partition) :
    putLiteral start s p = ⟨opening start s ++ p.first, p.later⟩ := by
  have hplain : ∀ c ∈ s, isPlain c = true := fun c hc => isPlain_iff.2 (hs c hc)
  have hdrop : s.dropWhile isPlain = [] := List.dropWhile_eq_nil_iff.2 hplain
  rw [putLiteral, List.takeWhile_eq_self_iff.2 hplain]
  split
  · rfl
  · rename_i heq
    cases hdrop.symm.trans heq

theorem putLiteral_blank {s rest : Text} {c : CodePoint} (hs : ∀ d ∈ s, d.isSpace = false) (hc : c.isSpace = true)
    (start : Int) (p : Partition) :
    putLiteral start (s ++ c :: rest) p =
      ⟨opening start s, (putLiteral (start + s.length + 1) rest p).words⟩ := by
  have hplain : ∀ d ∈ s, isPlain d = true := fun d hd => isPlain_iff.2 (hs d hd)
  have hstop : ¬ isPlain c = true := by simp [isPlain, hc]
  have htake : (s ++ c :: rest).takeWhile isPlain = s := by
    rw [List.takeWhile_append_of_pos hplain, List.takeWhile_cons_of_neg hstop, List.append_nil]
  have hdrop : (s ++ c :: rest).dropWhile isPlain = c :: rest := by
    rw [List.dropWhile_append_of_pos hplain, List.dropWhile_cons_of_neg hstop]
  rw [putLiteral, htake]
  split
  · rename_i heq
    cases hdrop.symm.trans heq
  · rename_i heq
    cases hdrop.symm.trans heq
    rfl

/-- a literal before a partition keeps what is known of it, and adds its atoms -/
theorem putLiteral_pending {p : Partition} {k : Spaced Word} (h : Pending p k) (start : Int) (t : Text) :
    ∃ k', Pending (putLiteral start t p) k' ∧
      (putLiteral start t p).first.flatMap Token.atoms ++ k'.atoms =
        t.map .char ++ (p.first.flatMap Token.atoms ++ k.atoms) := by
  induction start, t using blank_induction with
  | plain start s hs =>
    rw [putLiteral_plain hs]
    refine ⟨k, ⟨h.behind, h.lead, opening_pieces start hs h.pieces⟩, ?_⟩
    rw [List.flatMap_append, opening_atoms, List.append_assoc]
  | blank start s c rest hs hc ih =>
    rw [putLiteral_blank hs hc]
    obtain ⟨k₁, hk₁, hatoms₁⟩ := ih
    obtain ⟨k₂, hk₂, hatoms₂⟩ := hk₁.close
    have hopening : Pieces (opening start s) := by simpa using opening_pieces start hs (w := []) (by simp [Pieces])
    have hlead : Spaced.atoms ⟨c :: k₂.lead, k₂.parts⟩ = .char c :: k₂.atoms := rfl
    refine ⟨⟨c :: k₂.lead, k₂.parts⟩, hk₂.blank hc hopening, ?_⟩
    calc (opening start s).flatMap Token.atoms ++ Spaced.atoms ⟨c :: k₂.lead, k₂.parts⟩
        = s.map .char ++ .char c :: k₂.atoms := by rw [opening_atoms, hlead]
      _ = s.map .char ++ .char c :: (rest.map .char ++ (p.first.flatMap Token.atoms ++ k.atoms)) := by
          rw [hatoms₂, hatoms₁]
      _ = (s ++ c :: rest).map .char ++ (p.first.flatMap Token.atoms ++ k.atoms) := by
          rw [List.map_append, List.map_cons, List.append_assoc, List.cons_append]

/-- a token before a partition keeps what is known of it, and adds its atoms -/
theorem put_pending {p : Partition} {k : Spaced Word} (h : Pending p k) (tok : Token) :
    ∃ k', Pending (put tok p) k' ∧
      (put tok p).first.flatMap Token.atoms ++ k'.atoms =
        tok.atoms ++ (p.first.flatMap Token.atoms ++ k.atoms) := by
  cases tok with
  | literal s start => exact putLiteral_pending h start s
  | escape r v start =>
    refine ⟨k, ⟨h.behind, h.lead, fun s p hmem => h.pieces s p ?_⟩, by simp [put]⟩
    simpa [put] using hmem
  | interpolation e start =>
    refine ⟨k, ⟨h.behind, h.lead, fun s p hmem => h.pieces s p ?_⟩, by simp [put]⟩
    simpa [put] using hmem

theorem foldr_pending (ts : List Token) :
    ∃ k, Pending (ts.foldr put ⟨[], []⟩) k ∧
      (ts.foldr put ⟨[], []⟩).first.flatMap Token.atoms ++ k.atoms = ts.flatMap Token.atoms := by
  induction ts with
  | nil =>
    refine ⟨⟨[], []⟩, ⟨⟨rfl, ⟨by simp, by simp [Spaced.gaps], by simp [Spaced.gaps]⟩, by simp, by simp⟩, by simp,
      by simp [Pieces]⟩, rfl⟩
  | cons tok ts ih =>
    obtain ⟨k, hk, hatoms⟩ := ih
    obtain ⟨k', hk', hatoms'⟩ := put_pending hk tok
    exact ⟨k', hk', by rw [List.foldr_cons, hatoms', hatoms, List.flatMap_cons]⟩

end Words

/-- **Splitting takes out blanks only.** The words of a stream, spaced out by runs of blanks, have the atoms of the
stream; no word is empty, and no literal in a word is empty or holds a blank. -/
theorem splitWords_layout (ts : List Token) :
    ∃ k, Words.Layout (splitWords ts) k ∧ k.atoms = ts.flatMap Token.atoms := by
  obtain ⟨k, hk, hatoms⟩ := Words.foldr_pending ts
  obtain ⟨k', hk', hatoms'⟩ := hk.close
  exact ⟨k', hk', hatoms'.trans hatoms⟩

end PercentLiteral
