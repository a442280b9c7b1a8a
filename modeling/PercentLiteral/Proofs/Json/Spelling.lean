/-
What is written as JSON is read back.

A string is read back piece by piece (`pieces?_escaped`): only control codes are given by their codes, and no two of them
are a surrogate pair, so the pieces give the string (`token?_string`). An integer is read back if no digit, point or
exponent stands behind it (`number?_decimalInt`). `Plain` values are those made of nothing else; by induction on them, what
`Json.ofValue` writes derives the value (`Plain.spelled`), and holds no control code.
-/
import PercentLiteral.Proofs.Escape.RoundTrip
import PercentLiteral.Proofs.Json.Grammar
import PercentLiteral.Value.Json

namespace PercentLiteral.Json

/-- a text without control codes -/
def Clean (t : Text) : Prop := ∀ c ∈ t, 0x20 ≤ c.val

instance (t : Text) : Decidable (Clean t) := inferInstanceAs (Decidable (∀ c ∈ t, 0x20 ≤ c.val))

theorem clean_append {t u : Text} : Clean (t ++ u) ↔ Clean t ∧ Clean u := List.forall_mem_append

/-! ## Strings -/

theorem hex_four (n : Nat) : Text.hex 4 n =
    [CodePoint.hexDigit (n / 16 / 16 / 16), CodePoint.hexDigit (n / 16 / 16), CodePoint.hexDigit (n / 16),
      CodePoint.hexDigit n] := rfl

theorem coded?_hex {c : CodePoint} (h : c.val < 0x10000) : coded? (Text.hex 4 c.val) = some c := by
  have hcode : Text.ofDigits 16 [c.val / 16 / 16 / 16 % 16, c.val / 16 / 16 % 16, c.val / 16 % 16, c.val % 16] =
      c.val := by
    simp only [Text.ofDigits, List.foldl_cons, List.foldl_nil]
    omega
  simp [coded?, hex_four, Escape.hexValue?_hexDigit, hcode, CodePoint.ofNat?, c.isLt]

/-- a code point is written as a letter behind a backslash, by its code if it is a control code, or as itself -/
theorem escaped_cases (c : CodePoint) :
    (∃ l, (letters.find? fun e => e.1 = l) = some (l, c) ∧ escaped c = [.backslash, l] ∧ 0x20 ≤ l.val) ∨
      (c.val < 0x20 ∧ escaped c = .backslash :: .ofChar 'u' :: Text.hex 4 c.val) ∨
      (c ≠ .doubleQuote ∧ c ≠ .backslash ∧ 0x20 ≤ c.val ∧ escaped c = [c]) := by
  have hletter : ∀ l d : CodePoint, c.val = d.val → (letters.find? fun e => e.1 = l) = some (l, d) → 0x20 ≤ l.val →
      escaped d = [.backslash, l] →
      ∃ l, (letters.find? fun e => e.1 = l) = some (l, c) ∧ escaped c = [.backslash, l] ∧ 0x20 ≤ l.val := by
    intro l d hcd hfind hl hd
    obtain rfl := CodePoint.val_inj.1 hcd
    exact ⟨l, hfind, hd, hl⟩
  by_cases hquote : c = .doubleQuote
  · exact Or.inl (hletter .doubleQuote .doubleQuote (by rw [hquote]) rfl (by decide) rfl)
  by_cases hbackslash : c = .backslash
  · exact Or.inl (hletter .backslash .backslash (by rw [hbackslash]) rfl (by decide) rfl)
  by_cases hnewline : c = .newline
  · exact Or.inl (hletter (.ofChar 'n') .newline (by rw [hnewline]) rfl (by decide) rfl)
  by_cases hreturn : c = .carriageReturn
  · exact Or.inl (hletter (.ofChar 'r') .carriageReturn (by rw [hreturn]) rfl (by decide) rfl)
  by_cases htab : c.val = 0x09
  · exact Or.inl (hletter (.ofChar 't') ⟨0x09, by decide⟩ htab rfl (by decide) rfl)
  by_cases hbackspace : c.val = 0x08
  · exact Or.inl (hletter (.ofChar 'b') ⟨0x08, by decide⟩ hbackspace rfl (by decide) rfl)
  by_cases hfeed : c.val = 0x0C
  · exact Or.inl (hletter (.ofChar 'f') ⟨0x0C, by decide⟩ hfeed rfl (by decide) rfl)
  have hescaped : escaped c = if c.val < 0x20 then text "\\u" ++ Text.hex 4 c.val else [c] := by
    simp [escaped, hquote, hbackslash, hnewline, hreturn, htab, hbackspace, hfeed]
  by_cases hcontrol : c.val < 0x20
  · rw [if_pos hcontrol] at hescaped
    exact Or.inr (Or.inl ⟨hcontrol, hescaped⟩)
  · rw [if_neg hcontrol] at hescaped
    exact Or.inr (Or.inr ⟨hquote, hbackslash, by omega, hescaped⟩)

theorem clean_escaped (c : CodePoint) : Clean (escaped c) := by
  rcases escaped_cases c with ⟨l, _, he, hl⟩ | ⟨_, he⟩ | ⟨_, _, hc, he⟩
  · rw [he]
    simp [Clean, hl]
    decide
  · have hdigit : ∀ d, 0x20 ≤ (CodePoint.hexDigit d).val := by
      intro d
      unfold CodePoint.hexDigit
      split <;> simp <;> omega
    rw [he, hex_four]
    simp [Clean, hdigit]
    decide
  · rw [he]
    simpa [Clean] using hc

/-- a code point in a string is read back as one piece, and only control codes are given by their codes -/
theorem pieces?_escaped (c : CodePoint) : ∃ coded : Bool, (coded = true → c.val < 0x20) ∧
    ∀ u, pieces? (escaped c ++ u) = (pieces? u).map fun p => (⟨c, coded⟩ :: p.1, p.2) := by
  rcases escaped_cases c with ⟨l, hfind, he, _⟩ | ⟨hcontrol, he⟩ | ⟨hquote, hbackslash, hcontrol, he⟩
  · refine ⟨false, by simp, fun u => ?_⟩
    rw [he]
    exact pieces?_letter hfind u
  · refine ⟨true, fun _ => hcontrol, fun u => ?_⟩
    rw [he]
    exact pieces?_code (coded?_hex (by omega)) u
  · refine ⟨false, by simp, fun u => ?_⟩
    rw [he]
    exact pieces?_plain hquote hbackslash hcontrol u

theorem pieces?_string (t r : Text) : ∃ ps, pieces? (t.flatMap escaped ++ .doubleQuote :: r) = some (ps, r) ∧
    ps.map Piece.point = t ∧ ∀ p ∈ ps, p.isCoded = true → p.point.val < 0x20 := by
  induction t with
  | nil => exact ⟨[], pieces?_quote r, rfl, by simp⟩
  | cons c t ih =>
    obtain ⟨ps, hps, hpoints, hcodes⟩ := ih
    obtain ⟨coded, hcode, hpiece⟩ := pieces?_escaped c
    refine ⟨⟨c, coded⟩ :: ps, ?_, by rw [List.map_cons, hpoints], List.forall_mem_cons.2 ⟨hcode, hcodes⟩⟩
    rw [List.flatMap_cons, List.append_assoc, hpiece, hps]
    rfl

/-- pieces without surrogates given by their codes are joined as they are -/
theorem join_eq {ps : List Piece} (h : ∀ p ∈ ps, p.isCoded = true → p.point.val < 0xD800) :
    join ps = ps.map Piece.point := by
  induction ps with
  | nil => rfl
  | cons p ps ih =>
    obtain ⟨hp, hps⟩ := List.forall_mem_cons.1 h
    cases ps with
    | nil => rfl
    | cons q ps =>
      have hpair : pair? p q = none := by
        refine dif_neg ?_
        rintro ⟨hcoded, hhigh, _⟩
        have := hp (Bool.and_eq_true_iff.1 hcoded).1
        omega
      rw [join, hpair, List.map_cons, ← ih hps]

theorem string_append (t r : Text) : string t ++ r = .doubleQuote :: (t.flatMap escaped ++ .doubleQuote :: r) := by
  simp [string]

/-- **A string is read back**, whatever stands behind it. -/
theorem token?_string (t r : Text) : token? (string t ++ r) = some (.scalar (.str t), r) := by
  obtain ⟨ps, hps, rfl, hcodes⟩ := pieces?_string t r
  have hjoin : join ps = ps.map Piece.point := join_eq fun p hp hcoded => by
    have := hcodes p hp hcoded
    omega
  have hquote : isBlank .doubleQuote = false := by decide
  rw [string_append, token?, List.dropWhile_cons_of_neg (by simp [hquote])]
  simp only [if_true, hps, Option.map_some, hjoin]

theorem clean_string (t : Text) : Clean (string t) := by
  have hquote : Clean [.doubleQuote] := by
    intro c hc
    rw [List.mem_singleton.1 hc]
    decide
  refine clean_append.2 ⟨clean_append.2 ⟨hquote, ?_⟩, hquote⟩
  intro c hc
  obtain ⟨d, _, hd⟩ := List.mem_flatMap.1 hc
  exact clean_escaped d c hd

/-! ## Integers -/

/-- whether a number ends before a text -/
def Delimits (r : Text) : Prop := ∀ c ∈ r.head?, c.isDigit = false ∧ c ≠ .dot ∧ c.val ≠ 0x65 ∧ c.val ≠ 0x45

theorem isDigit_decimal {n : Nat} {c : CodePoint} (h : c ∈ Text.decimal n) : c.isDigit = true := by
  obtain ⟨d, hd, rfl⟩ := List.mem_map.1 h
  have hdigit := Nat.isDigit_of_mem_toDigits (by decide) (by decide) hd
  simp only [Char.isDigit, Bool.and_eq_true, decide_eq_true_eq, ge_iff_le, UInt32.le_iff_toNat_le] at hdigit
  simp only [CodePoint.isDigit, CodePoint.ofChar, Bool.and_eq_true]
  exact ⟨decide_eq_true hdigit.1, decide_eq_true hdigit.2⟩

theorem toNat_decimal (n : Nat) : Text.toNat (Text.decimal n) = n := by
  have hread : ∀ ds : List Char, ∀ k : Nat,
      ((ds.map CodePoint.ofChar).map fun c => c.val - 0x30).foldl (fun n d => n * 10 + d) k =
        Nat.ofDigitChars 10 ds k := by
    intro ds
    induction ds with
    | nil => exact fun k => rfl
    | cons d ds ih =>
      intro k
      rw [List.map_cons, List.map_cons, List.foldl_cons, ih, Nat.ofDigitChars_cons, Nat.mul_comm]
      rfl
  calc Text.toNat (Text.decimal n)
    _ = Nat.ofDigitChars 10 (Nat.toDigits 10 n) 0 := hread _ 0
    _ = n := Nat.ofDigitChars_toDigits (by decide) (by decide)

/-- the digits of a number begin with a zero only if it is the number zero -/
theorem head?_decimal {n : Nat} (h : 0 < n) : (Text.decimal n).head? ≠ some .zero := by
  have honce : ∀ d < 10, 0 < d → CodePoint.ofChar (Nat.digitChar d) ≠ .zero := by decide
  induction n using Nat.strongRecOn with
  | ind n ih =>
    unfold Text.decimal at ih ⊢
    rw [Nat.toDigits_eq_if (by decide)]
    split
    · rename_i hsmall
      simpa using honce n hsmall h
    · rename_i hlarge
      have hne : (Nat.toDigits 10 (n / 10)).map CodePoint.ofChar ≠ [] := by simp [Nat.toDigits_ne_nil]
      rw [List.map_append, List.head?_append_of_ne_nil _ hne]
      exact ih (n / 10) (by omega) (by omega)

theorem decimal_ne_nil (n : Nat) : Text.decimal n ≠ [] := by simp [Text.decimal, Nat.toDigits_ne_nil]

/-- the digits of a number are taken together -/
theorem whole_decimal (n : Nat) {r : Text} (h : Delimits r) : whole (Text.decimal n ++ r) = Text.decimal n := by
  have hhead : (Text.decimal n ++ r).head? = (Text.decimal n).head? := List.head?_append_of_ne_nil _ (decimal_ne_nil n)
  unfold whole
  rw [hhead]
  rcases Nat.eq_zero_or_pos n with rfl | hpos
  · rfl
  · have hbehind : r.takeWhile CodePoint.isDigit = [] := by
      cases r with
      | nil => rfl
      | cons c r => simp [(h c rfl).1]
    rw [if_neg (head?_decimal hpos), List.takeWhile_append_of_pos fun c hc => isDigit_decimal hc, hbehind,
      List.append_nil]

theorem fraction_of_delimits {r : Text} (h : Delimits r) : fraction r = [] := by
  cases r with
  | nil => rfl
  | cons c r => simp [fraction, (h c rfl).2.1]

theorem exponent_of_delimits {r : Text} (h : Delimits r) : exponent r = [] := by
  cases r with
  | nil => rfl
  | cons c r => simp [exponent, (h c rfl).2.2]

/-- behind its sign an integer is its digits -/
theorem number?_digits (sign : Text) {t r : Text} {n : Nat} (hsign : (t.take 1).filter (fun c => c = .dash) = sign)
    (hdigits : t.drop sign.length = Text.decimal n ++ r) (h : Delimits r) :
    number? t = some (.int (if sign = [] then (n : Int) else -(n : Int)), r) := by
  unfold number?
  simp only [hsign, hdigits, whole_decimal n h, List.drop_left, fraction_of_delimits h, exponent_of_delimits h,
    List.append_nil, if_neg (decimal_ne_nil n), if_true, toNat_decimal]

theorem number?_decimalInt (i : Int) {r : Text} (h : Delimits r) :
    number? (Text.decimalInt i ++ r) = some (.int i, r) := by
  cases i with
  | ofNat n =>
    obtain ⟨d, ds, hd⟩ := List.exists_cons_of_ne_nil (decimal_ne_nil n)
    have hdigit : d.isDigit = true := isDigit_decimal (n := n) (by simp [hd])
    have hdash : d ≠ .dash := by
      rintro rfl
      cases hdigit
    exact number?_digits [] (by simp [Text.decimalInt, hd, hdash]) rfl h
  | negSucc n =>
    exact number?_digits [.dash] (t := .dash :: Text.decimal (n + 1) ++ r) (n := n + 1) rfl rfl h

/-- a text that begins like a number begins with one -/
theorem token?_number {c : CodePoint} (hc : c = .dash ∨ c.isDigit = true) (t : Text) :
    token? (c :: t) = (number? (c :: t)).map fun p => (.scalar p.1, p.2) := by
  have hplain : isBlank c = false ∧ c ≠ .doubleQuote := by
    rcases hc with rfl | hdigit
    · decide
    · have hval : 0x30 ≤ c.val := (by simpa [CodePoint.isDigit] using hdigit : 0x30 ≤ c.val ∧ c.val ≤ 0x39).1
      constructor
      · simp only [isBlank, Bool.or_eq_false_iff, beq_eq_false_iff_ne]
        omega
      · rintro rfl
        cases hdigit
  rw [token?, List.dropWhile_cons_of_neg (by simp [hplain.1])]
  simp only [if_neg hplain.2, if_pos hc]

/-- **An integer is read back** before what can stand behind it. -/
theorem token?_decimalInt (i : Int) {r : Text} (h : Delimits r) :
    token? (Text.decimalInt i ++ r) = some (.scalar (.int i), r) := by
  have hfirst : ∃ c t, Text.decimalInt i ++ r = c :: t ∧ (c = .dash ∨ c.isDigit = true) := by
    cases i with
    | ofNat n =>
      obtain ⟨d, ds, hd⟩ := List.exists_cons_of_ne_nil (decimal_ne_nil n)
      exact ⟨d, ds ++ r, by simp [Text.decimalInt, hd], Or.inr (isDigit_decimal (n := n) (by simp [hd]))⟩
    | negSucc n => exact ⟨.dash, Text.decimal (n + 1) ++ r, rfl, Or.inl rfl⟩
  obtain ⟨c, t, ht, hc⟩ := hfirst
  have hnumber := number?_decimalInt i h
  rw [ht] at hnumber ⊢
  rw [token?_number hc, hnumber]
  rfl

theorem clean_decimalInt (i : Int) : Clean (Text.decimalInt i) := by
  have hdecimal : ∀ n, Clean (Text.decimal n) := by
    intro n c hc
    have hdigit := isDigit_decimal hc
    simp only [CodePoint.isDigit, Bool.and_eq_true, decide_eq_true_eq] at hdigit
    omega
  cases i with
  | ofNat n => exact hdecimal n
  | negSucc n => exact List.forall_mem_cons.2 ⟨by decide, hdecimal (n + 1)⟩

/-! ## Values -/

/-- values made of nothing but none, truth values, integers, strings, lists, and dictionaries whose keys are strings -/
inductive Plain : Value → Prop where
  | none : Plain .none
  | bool (b : Bool) : Plain (.bool b)
  | int (i : Int) : Plain (.int i)
  | str (t : Text) : Plain (.str t)
  | list {vs : List Value} : (∀ v ∈ vs, Plain v) → Plain (.list vs)
  | dict {es : List (Value × Value)} : (∀ e ∈ es, ∃ k, e.1 = .str k) → (∀ e ∈ es, Plain e.2) → Plain (.dict es)

/-- a text that a value is written as, and that is read back as it -/
structure Spelled (v : Value) (t : Text) : Prop where
  form : ofValue v = .ok t
  clean : Clean t
  derives : ∀ r, Delimits r → Derives .value (t ++ r) v r

/-- a text that a member is written as -/
inductive SpelledEntry : Value × Value → Text → Prop where
  | mk {k t : Text} {v : Value} : Spelled v t → SpelledEntry (.str k, v) (string k ++ text ": " ++ t)

/-- a number ends before a mark that can stand behind a value -/
theorem delimits_mark {c : CodePoint} (h : c = .ofChar ',' ∨ c = .ofChar ']' ∨ c = .braceClose) (r : Text) :
    Delimits (c :: r) := by
  intro d hd
  cases hd
  rcases h with rfl | rfl | rfl <;> decide

theorem clean_joined {α : Type} {R : α → Text → Prop} (hR : ∀ a t, R a t → Clean t) {as : List α} {ts : List Text}
    (h : List.Forall₂ R as ts) : Clean (Text.joined (text ", ") ts) := by
  have hcomma : Clean (text ", ") := by decide
  induction h with
  | nil => simp [Clean, Text.joined]
  | cons ht hts ih =>
    cases hts with
    | nil => exact hR _ _ ht
    | cons hu hus => exact clean_append.2 ⟨clean_append.2 ⟨hR _ _ ht, hcomma⟩, ih⟩

/-- items that are read back one by one are read back as a row -/
theorem items_derive {v : Value} {vs : List Value} {t : Text} {ts : List Text} (hv : Spelled v t)
    (hvs : List.Forall₂ Spelled vs ts) (r : Text) :
    Derives .items (Text.joined (text ", ") (t :: ts) ++ .ofChar ']' :: r) (.list (v :: vs)) r := by
  induction hvs generalizing v t with
  | nil => exact .lastItem (hv.derives _ (delimits_mark (by simp) r)) rfl
  | @cons w u ws us hw hws ih =>
    have hsplit : Text.joined (text ", ") (t :: u :: us) ++ .ofChar ']' :: r =
        t ++ .ofChar ',' :: .space :: (Text.joined (text ", ") (u :: us) ++ .ofChar ']' :: r) := by
      simp [Text.joined, show text ", " = [.ofChar ',', .space] by decide]
    rw [hsplit]
    exact .item (hv.derives _ (delimits_mark (by simp) _)) rfl ((ih hw).blank rfl)

theorem ofValues_eq {vs : List Value} {ts : List Text} (h : List.Forall₂ Spelled vs ts) : ofValues vs = .ok ts := by
  induction h with
  | nil => rfl
  | cons ht _ ih =>
    rw [ofValues, ht.form, ih]
    rfl

theorem spelled_list {vs : List Value} {ts : List Text} (h : List.Forall₂ Spelled vs ts) :
    Spelled (.list vs) (text "[" ++ Text.joined (text ", ") ts ++ text "]") := by
  refine ⟨?_, ?_, ?_⟩
  · rw [ofValue, ofValues_eq h]
    rfl
  · exact clean_append.2 ⟨clean_append.2 ⟨by decide, clean_joined (fun v t hv => hv.clean) h⟩, by decide⟩
  · intro r hr
    rw [List.append_assoc, List.append_assoc]
    cases h with
    | nil => exact .emptyArray rfl rfl
    | cons hv hvs => exact .array rfl (items_derive hv hvs r)

theorem clean_entry {e : Value × Value} {t : Text} (h : SpelledEntry e t) : Clean t := by
  cases h with
  | mk hv => exact clean_append.2 ⟨clean_append.2 ⟨clean_string _, by decide⟩, hv.clean⟩

/-- members that are read back one by one are read back as a row -/
theorem members_derive {e : Value × Value} {es : List (Value × Value)} {t : Text} {ts : List Text}
    (he : SpelledEntry e t) (hes : List.Forall₂ SpelledEntry es ts) (r : Text) :
    Derives .members (Text.joined (text ", ") (t :: ts) ++ .braceClose :: r) (.dict (e :: es)) r := by
  induction hes generalizing e t with
  | nil =>
    cases he with
    | @mk k t v hv =>
      have hsplit : Text.joined (text ", ") [string k ++ text ": " ++ t] ++ .braceClose :: r =
          string k ++ .colon :: .space :: (t ++ .braceClose :: r) := by
        simp [Text.joined, show text ": " = [.colon, .space] by decide]
      rw [hsplit]
      exact .lastMember (token?_string _ _) rfl ((hv.derives _ (delimits_mark (by simp) r)).blank rfl) rfl
  | @cons f u fs us hf hfs ih =>
    cases he with
    | @mk k t v hv =>
      have hsplit : Text.joined (text ", ") ((string k ++ text ": " ++ t) :: u :: us) ++ .braceClose :: r =
          string k ++ .colon :: .space ::
            (t ++ .ofChar ',' :: .space :: (Text.joined (text ", ") (u :: us) ++ .braceClose :: r)) := by
        simp [Text.joined, show text ": " = [.colon, .space] by decide, show text ", " = [.ofChar ',', .space] by decide]
      rw [hsplit]
      exact .member (token?_string _ _) rfl ((hv.derives _ (delimits_mark (by simp) _)).blank rfl) rfl
        ((ih hf).blank rfl)

theorem ofEntries_eq {es : List (Value × Value)} {ts : List Text} (h : List.Forall₂ SpelledEntry es ts) :
    ofEntries es = .ok ts := by
  induction h with
  | nil => rfl
  | cons he _ ih =>
    cases he with
    | mk hv =>
      rw [ofEntries, hv.form, ih]
      rfl

theorem spelled_dict {es : List (Value × Value)} {ts : List Text} (h : List.Forall₂ SpelledEntry es ts) :
    Spelled (.dict es) (text "\x7b" ++ Text.joined (text ", ") ts ++ text "\x7d") := by
  refine ⟨?_, ?_, ?_⟩
  · rw [ofValue, ofEntries_eq h]
    rfl
  · exact clean_append.2 ⟨clean_append.2 ⟨by decide, clean_joined (fun e t he => clean_entry he) h⟩, by decide⟩
  · intro r hr
    rw [List.append_assoc, List.append_assoc]
    cases h with
    | nil => exact .emptyObject rfl rfl
    | cons he hes => exact .object rfl (members_derive he hes r)

/-- **Plain values are read back.** -/
theorem Plain.spelled {v : Value} (h : Plain v) : ∃ t, Spelled v t := by
  induction h with
  | none => exact ⟨_, rfl, by decide, fun r _ => .scalar rfl⟩
  | bool b => cases b <;> exact ⟨_, rfl, by decide, fun r _ => .scalar rfl⟩
  | int i => exact ⟨_, rfl, clean_decimalInt i, fun r hr => .scalar (token?_decimalInt i hr)⟩
  | str t => exact ⟨_, rfl, clean_string t, fun r _ => .scalar (token?_string t r)⟩
  | list _ ih =>
    obtain ⟨ts, hts⟩ := Steps.exists_forall₂ ih
    exact ⟨_, spelled_list hts⟩
  | @dict es hkeys _ ih =>
    have hentries : ∀ e ∈ es, ∃ t, SpelledEntry e t := by
      intro e he
      obtain ⟨k, v⟩ := e
      obtain ⟨k, rfl⟩ := hkeys _ he
      obtain ⟨t, ht⟩ := ih _ he
      exact ⟨_, .mk ht⟩
    obtain ⟨ts, hts⟩ := Steps.exists_forall₂ hentries
    exact ⟨_, spelled_dict hts⟩

end PercentLiteral.Json
