/-
Where an interpolation ends.

`Ends` says of an expression that its braces match and that a text begins with it and a closing brace. There is at most
one such expression (`Ends.unique`), and counting braces finds it: `extract_eq_ok_iff` tells what is extracted, and
`extract_eq_error_iff` that nothing else is refused. `extract_iff_split` says the same with the text cut at the ends of
the interpolation, so nothing but the code points in between matters.

`extract_balanced_span`: all of this at every opening mark.
-/
import PercentLiteral.Proofs.Interpolation.Balance
import PercentLiteral.Proofs.Scan.Concatenation

namespace PercentLiteral.Interpolation

variable {t : Text} {position : Nat}

/-- whether an expression with matching braces begins a text, and the brace behind it closes it -/
def Ends (e t : Text) : Prop := Balanced e ∧ e ++ [.braceClose] <+: t

/-- an interpolation has one end -/
theorem Ends.unique {e e' : Text} (h : Ends e t) (h' : Ends e' t) : e = e' :=
  Option.some.inj ((body?_iff.2 h).symm.trans (body?_iff.2 h'))

theorem body?_eq_none_iff : body? 0 t = none ↔ ¬ ∃ e, Ends e t := by
  rw [Option.eq_none_iff_forall_ne_some, not_exists]
  exact forall_congr' fun e => not_congr body?_iff

/-! ## Extraction -/

/-- behind an opening mark, extraction is reading the text behind the mark -/
theorem extract_opened (h : opens (t.drop position) = true) :
    extract t position = match body? 0 (t.drop (position + 2)) with
      | some e => .ok (.interpolation e position)
      | none => .error (.template (unterminated (t.drop position) position)) := by
  rw [extract, if_pos h, read, List.drop_drop]
  cases body? 0 (t.drop (position + 2)) <;> rfl

theorem extract_eq_ok_iff (h : opens (t.drop position) = true) {tok : Token} :
    extract t position = .ok tok ↔ ∃ e, Ends e (t.drop (position + 2)) ∧ tok = .interpolation e position := by
  rw [extract_opened h]
  cases hbody : body? 0 (t.drop (position + 2)) with
  | some e =>
    have hends : Ends e (t.drop (position + 2)) := body?_iff.1 hbody
    constructor
    · intro hok
      cases hok
      exact ⟨e, hends, rfl⟩
    · rintro ⟨e', hends', rfl⟩
      rw [hends.unique hends']
  | none =>
    have hnone := body?_eq_none_iff.1 hbody
    constructor
    · intro hok
      cases hok
    · rintro ⟨e, hends, _⟩
      exact absurd ⟨e, hends⟩ hnone

theorem extract_eq_error_iff (h : opens (t.drop position) = true) {x : ExtractError} :
    extract t position = .error x ↔
      (¬ ∃ e, Ends e (t.drop (position + 2))) ∧ x = .template (unterminated (t.drop position) position) := by
  rw [extract_opened h, ← body?_eq_none_iff]
  cases body? 0 (t.drop (position + 2)) with
  | some e => simp
  | none => simp [eq_comm]

/-- **The text of an interpolation.** What is extracted stands in the text at its position, and its braces match. -/
theorem extract_iff_split {tok : Token} :
    extract t position = .ok tok ↔
      ∃ p e rest, t = p ++ ((Token.interpolation e position).raw ++ rest) ∧ p.length = position ∧ Balanced e ∧
        tok = .interpolation e position := by
  constructor
  · intro hok
    have hopens : opens (t.drop position) = true := by
      by_contra hnot
      rw [extract, if_neg hnot] at hok
      cases hok
    obtain ⟨e, ⟨hbalanced, rest, hrest⟩, rfl⟩ := (extract_eq_ok_iff hopens).1 hok
    obtain ⟨body, hbody⟩ := opens_iff.1 hopens
    have htail : body = t.drop (position + 2) := by
      rw [← List.drop_drop, hbody]
      rfl
    refine ⟨t.take position, e, rest, ?_, ?_, hbalanced, rfl⟩
    · have hraw : (Token.interpolation e position).raw ++ rest = t.drop position := by
        rw [hbody, htail, ← hrest]
        simp [Token.raw]
      rw [hraw, List.take_append_drop]
    · have hlength := congrArg List.length hbody
      rw [List.length_drop, List.length_cons] at hlength
      rw [List.length_take]
      omega
  · rintro ⟨p, e, rest, rfl, rfl, hbalanced, rfl⟩
    have hdrop : (p ++ ((Token.interpolation e p.length).raw ++ rest)).drop p.length =
        .hash :: .braceOpen :: (e ++ .braceClose :: rest) := by
      rw [List.drop_left]
      simp [Token.raw]
    have hopens : opens ((p ++ ((Token.interpolation e p.length).raw ++ rest)).drop p.length) = true :=
      opens_iff.2 ⟨_, hdrop⟩
    refine (extract_eq_ok_iff hopens).2 ⟨e, ⟨hbalanced, rest, ?_⟩, rfl⟩
    rw [← List.drop_drop, hdrop]
    simp

/-- extraction looks at nothing before its position -/
theorem extract_of_drop_eq {u : Text} {q : Nat} (h : opens (t.drop position) = true)
    (hdrop : u.drop q = t.drop position) :
    (∀ tok, extract t position = .ok tok → extract u q = .ok (tok.shift (q - position))) ∧
      ∀ e, extract t position = .error (.template e) →
        extract u q = .error (.template (e.shift (q - position))) := by
  have hopens : opens (u.drop q) = true := by rwa [hdrop]
  have htail : u.drop (q + 2) = t.drop (position + 2) := by rw [← List.drop_drop, hdrop, List.drop_drop]
  have hmoved : (position : Int) + (q - position) = q := by omega
  constructor
  · intro tok hok
    obtain ⟨e, hends, rfl⟩ := (extract_eq_ok_iff h).1 hok
    refine (extract_eq_ok_iff hopens).2 ⟨e, by rwa [htail], ?_⟩
    rw [Token.shift, hmoved]
  · intro e herror
    obtain ⟨hnone, heq⟩ := (extract_eq_error_iff h).1 herror
    cases heq
    refine (extract_eq_error_iff hopens).2 ⟨by rwa [htail], ?_⟩
    rw [TemplateError.shift, unterminated, hmoved, hdrop]
    rfl

/-- an extracted token has the text between its offsets for its raw text -/
theorem extract_raw {tok : Token} (h : extract t position = .ok tok) : tok.raw = t.slice position tok.stop := by
  obtain ⟨p, e, rest, rfl, rfl, _, rfl⟩ := extract_iff_split.1 h
  exact (Text.slice_of_prefix (List.prefix_append _ rest)).symm

/-- what stands behind the closing brace does not matter -/
theorem extract_of_prefix {tok : Token} (h : extract t position = .ok tok) {u : Text}
    (hu : t.take tok.stop.toNat <+: u) : extract u position = .ok tok := by
  obtain ⟨p, e, rest, rfl, rfl, hbalanced, rfl⟩ := extract_iff_split.1 h
  have hstop : (Token.interpolation e p.length).stop.toNat = (p ++ (Token.interpolation e p.length).raw).length := by
    rw [Token.stop, Token.start, List.length_append]
    omega
  rw [hstop, ← List.append_assoc, List.take_left] at hu
  obtain ⟨behind, rfl⟩ := hu
  exact extract_iff_split.2 ⟨p, e, behind, List.append_assoc .., rfl, hbalanced, rfl⟩

/-- **Extraction finds the balanced span.** At an opening mark, an expression is extracted exactly if its braces match
and it stands behind the mark with a closing brace behind it. At most one expression does; nothing else is extracted, and
the raw text of the token is the text up to its end. If there is none, and then only, the interpolation is refused as
unterminated, with all the text from the mark on. What stands before the mark does not matter, nor does what stands
behind the closing brace. -/
theorem extract_balanced_span (h : opens (t.drop position) = true) :
    (∀ e, extract t position = .ok (.interpolation e position) ↔
        Balanced e ∧ e ++ [.braceClose] <+: t.drop (position + 2)) ∧
      (∀ e e', Balanced e ∧ e ++ [.braceClose] <+: t.drop (position + 2) →
        Balanced e' ∧ e' ++ [.braceClose] <+: t.drop (position + 2) → e = e') ∧
      (∀ tok, extract t position = .ok tok →
        (∃ e, tok = .interpolation e position) ∧ tok.raw = t.slice position tok.stop) ∧
      (extract t position =
          .error (.template ⟨.unterminatedInterpolation (some (text "missing closing brace")), t.drop position,
            position⟩) ↔
        ¬ ∃ e, Balanced e ∧ e ++ [.braceClose] <+: t.drop (position + 2)) ∧
      (∀ u q, u.drop q = t.drop position →
        (∀ tok, extract t position = .ok tok → extract u q = .ok (tok.shift (q - position))) ∧
          ∀ e, extract t position = .error (.template e) →
            extract u q = .error (.template (e.shift (q - position)))) ∧
      ∀ tok, extract t position = .ok tok → ∀ u, t.take tok.stop.toNat <+: u → extract u position = .ok tok := by
  refine ⟨?_, ?_, ?_, ?_, ?_, ?_⟩
  · intro e
    rw [extract_eq_ok_iff h]
    constructor
    · rintro ⟨e', hends, heq⟩
      cases heq
      exact hends
    · exact fun hends => ⟨e, hends, rfl⟩
  · intro e e' hends hends'
    exact Ends.unique hends hends'
  · intro tok hok
    obtain ⟨e, _, rfl⟩ := (extract_eq_ok_iff h).1 hok
    exact ⟨⟨e, rfl⟩, extract_raw hok⟩
  · rw [extract_eq_error_iff h]
    exact and_iff_left rfl
  · intro u q hdrop
    exact extract_of_drop_eq h hdrop
  · intro tok hok u hu
    exact extract_of_prefix hok hu

/-- an opening mark inside the expression, and a stray brace behind the closing one -/
theorem extract_balanced_span_nested :
    opens ((text "a#{x#{y}{}}\x7d b").drop 1) = true ∧
      extract (text "a#{x#{y}{}}\x7d b") 1 = .ok (.interpolation (text "x#{y}{}") 1) ∧
      Balanced (text "x#{y}{}") ∧
      extract (text "a#{x#{y}{}} more") 1 = .ok (.interpolation (text "x#{y}{}") 1) := by
  have hopens : opens ((text "a#{x#{y}{}}\x7d b").drop 1) = true := by decide
  have hok : extract (text "a#{x#{y}{}}\x7d b") 1 = .ok (.interpolation (text "x#{y}{}") 1) := by cbv
  obtain ⟨hiff, _, _, _, _, hbehind⟩ := extract_balanced_span hopens
  exact ⟨hopens, hok, ((hiff _).1 hok).1, hbehind _ hok _ ⟨text " more", by decide⟩⟩

end PercentLiteral.Interpolation
