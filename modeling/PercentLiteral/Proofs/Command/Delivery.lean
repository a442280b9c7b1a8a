/-
What a failed run leaves behind.

A run first makes its text (`produce`) and then delivers it. Making the text adds to the log and sets the logging up; what
else is done there is done by the code that the run comes upon. If that code leaves the files and what was printed alone,
whatever fails there does so, too (`output_of_produce`). Delivering prints all of the text or none of it, and writes a file
in two steps: it empties the file, and then encodes the text (`exec_writeFile`). Only the second step can leave something
behind when it fails, and it fails at surrogates alone.

`failed_run_output`: a failed run prints nothing, and leaves the files alone unless its text holds a surrogate and there
is a file to write it to; then the run fails, and the file is left empty.
-/
import PercentLiteral.Command.Standard
import PercentLiteral.Proofs.Command.Stages
import PercentLiteral.Proofs.Escape.Recognition
import PercentLiteral.Proofs.Files.Writing
import Mathlib

namespace PercentLiteral

namespace Command

open Steps

/-! ## Making the text -/

/-- what a run does outside besides adding to the log -/
def Machine.output (m : Machine) : FileTree × Text := (m.files, m.printed)

instance : Quiet (Same Machine.output) where
  lines _ _ := rfl

theorem output_configureLogging (format : Log.Format) (m : Machine) :
    (configureLogging format m).output = m.output := by
  unfold configureLogging
  split <;> rfl

/-- the program's own code touches no files and prints nothing -/
theorem spares_standard (q : Request) (o : Options) :
    ({ q with host := .standard } : Request).Spares o Machine.output where
  visit _ _ := rfl
  referred _ _ _ _ _ _ _ := rfl
  expressions _ _ _ _ _ _ _ := rfl

/-! ## Delivering it -/

theorem exec_put (path : Text) (bs : List UInt8) (m : Machine) :
    exec (writeFile.put path bs) m = match m.files.write path bs with
      | .ok files => (.ok (), { m with files })
      | .error e => (.error (.failure (e.toFailure path)), m) := by
  unfold writeFile.put
  rw [exec_bind_ok (exec_get m)]
  cases m.files.write path bs <;> rfl

/-- **Writing empties first.** A path that cannot be written is refused before anything changes; otherwise the file has
the text, or is empty if the text cannot be encoded. -/
theorem exec_writeFile (path t : Text) (m : Machine) :
    exec (writeFile path t) m = match m.files.write path [], t.encodeUtf8 with
      | .error e, _ => (.error (.failure (e.toFailure path)), m)
      | .ok files, .error e => (.error (.failure (.saying "UnicodeEncodeError" e.message)), { m with files })
      | .ok _, .ok bs => exec (writeFile.put path bs) m := by
  unfold writeFile
  rw [exec_bind, exec_put]
  cases hwrite : m.files.write path [] with
  | error e => rfl
  | ok files =>
    cases t.encodeUtf8 with
    | error e => rfl
    | ok bs =>
      obtain ⟨files', hfiles'⟩ := FileTree.write_any hwrite bs
      have hagain : files.write path bs = .ok files' := (FileTree.write_write hwrite bs).trans hfiles'
      simp only [exec_put, hagain, hfiles']

/-- what cannot be printed is not printed in part -/
theorem print_failed {q : Request} {t : Text} {m m' : Machine} {a : Abort} (h : exec (print q t) m = (.error a, m')) :
    m' = m := by
  unfold print at h
  split at h
  · cases h
    rfl
  · split at h
    · split at h
      · cases h
      · cases h
        rfl
    · cases h

/-- a delivery that fails prints nothing, and changes files only where it empties one for a text with a surrogate -/
theorem deliver_failed {q : Request} {o : Options} {t : Text} {m m' : Machine} {a : Abort}
    (h : exec (deliver q o t) m = (.error a, m')) :
    m'.printed = m.printed ∧ (m'.files = m.files ∨ ∃ path files, o.output = some path ∧ path ≠ [] ∧
      (∃ c ∈ t, c.isSurrogate) ∧ m.files.write path [] = .ok files) := by
  unfold deliver at h
  split at h
  · rename_i path hpath
    obtain ⟨houtput, hne⟩ : o.output = some path ∧ path ≠ [] := by
      simpa [Option.filter_eq_some_iff] using hpath
    rw [exec_bind, exec_writeFile] at h
    cases hwrite : m.files.write path [] with
    | error e =>
      simp only [hwrite] at h
      cases h
      exact ⟨rfl, Or.inl rfl⟩
    | ok files =>
      cases hencode : t.encodeUtf8 with
      | error e =>
        simp only [hwrite, hencode] at h
        cases h
        exact ⟨rfl, Or.inr ⟨path, files, houtput, hne, Text.encodeUtf8_eq_error_iff.1 ⟨e, hencode⟩, hwrite⟩⟩
      | ok bs =>
        -- with the text encoded, the file is written, and so is the log
        obtain ⟨files', hfiles'⟩ := FileTree.write_any hwrite bs
        simp only [hwrite, hencode, exec_put, hfiles'] at h
        cases h
  · split at h
    · obtain rfl := print_failed h
      exact ⟨rfl, Or.inl rfl⟩
    · cases h

/-- a delivery of a text with a surrogate to a file leaves the file empty -/
theorem deliver_surrogate (q : Request) {o : Options} {t path : Text} {m : Machine} {files : FileTree}
    (houtput : o.output = some path) (hne : path ≠ []) (hsurrogate : ∃ c ∈ t, c.isSurrogate)
    (hwrite : m.files.write path [] = .ok files) :
    ∃ message, exec (deliver q o t) m =
      (.error (.failure (.saying "UnicodeEncodeError" message)), { m with files }) := by
  obtain ⟨e, hencode⟩ := Text.encodeUtf8_eq_error_iff.2 hsurrogate
  have hpath : o.output.filter (· ≠ []) = some path := by simp [houtput, hne]
  refine ⟨e.message, ?_⟩
  unfold deliver
  simp only [hpath]
  refine exec_bind_error ?_
  rw [exec_writeFile, hwrite, hencode]

/-- whether a run ends as a mistake of its user -/
def Abort.IsUsage : Abort → Prop
  | .usage _ => True
  | _ => False

theorem fails_put (path : Text) (bs : List UInt8) : Fails (fun a : Abort => ¬ a.IsUsage) (writeFile.put path bs) := by
  refine fails_get.bind fun m => ?_
  split
  · exact fails_modify _
  · exact fails_throw id

/-- a delivery never fails by a mistake of the user -/
theorem fails_deliver (q : Request) (o : Options) (t : Text) : Fails (fun a : Abort => ¬ a.IsUsage) (deliver q o t) := by
  unfold deliver
  split
  · refine Fails.bind ?_ fun _ => fails_modify _
    unfold writeFile
    refine (fails_put _ _).bind fun _ => ?_
    split
    · exact fails_put _ _
    · exact fails_throw id
  · split
    · unfold print
      split
      · exact fails_throw id
      · split
        · split
          · exact fails_modify _
          · exact fails_throw id
        · exact fails_modify _
    · exact fails_pure _

/-! ## Whole runs -/

variable {q : Request} {o : Options} {m m₁ m₂ : Machine} {t : Text} {a : Abort}

/-- whatever comes of making the text, the files are as they were, and nothing is printed, unless code does it -/
theorem output_of_produce (hcode : q.Spares o Machine.output) {result : Except Abort Text}
    (h : (produce q o).from m = (result, m₁)) : m₁.files = m.files ∧ m₁.printed = [] := by
  have hmade : (exec (produce q o) m.silent).2.output = (configureLogging (logFormat q o) m.silent).output :=
    moves_produce hcode m.silent
  rw [output_configureLogging, ← from_eq_exec, h] at hmade
  exact Prod.mk.inj hmade

/-- a run that delivers in vain fails as the delivery does -/
theorem run_of_deliver (hparse : Options.parse q.arguments = .ok o) (hproduce : (produce q o).from m = (.ok t, m₁))
    (hdeliver : exec (deliver q o t) m₁ = (.error a, m₂)) : (run q).from m = (.error a, m₂) := by
  rw [run_produced hparse hproduce, exec_bind_error hdeliver]

/-- a run fails where it makes its text, or else where it delivers it -/
theorem run_failed (hparse : Options.parse q.arguments = .ok o) (h : (run q).from m = (.error a, m₂)) :
    (produce q o).from m = (.error a, m₂) ∨
      ∃ t m₁, (produce q o).from m = (.ok t, m₁) ∧ exec (deliver q o t) m₁ = (.error a, m₂) := by
  rw [from_eq_exec, exec_run hparse] at h
  cases hproduce : (produce q o).from m with
  | mk result m₁ =>
    cases result with
    | error e =>
      rw [exec_bind_error (s := m.silent) hproduce] at h
      exact Or.inl h
    | ok t =>
      rw [exec_bind_ok (s := m.silent) hproduce] at h
      refine Or.inr ⟨t, m₁, rfl, ?_⟩
      cases hdeliver : exec (deliver q o t) m₁ with
      | mk delivered m₃ =>
        cases delivered with
        | error e =>
          rw [exec_bind_error hdeliver] at h
          cases h
          rfl
        | ok u =>
          rw [exec_bind_ok hdeliver] at h
          cases h

/-- whether a run empties its output file: it makes a text with a surrogate, for a file that can be written -/
structure Empties (q : Request) (o : Options) (m : Machine) (path : Text) : Prop where
  output : o.output = some path
  named : path ≠ []
  surrogate : ∃ t, ((produce q o).from m).1 = .ok t ∧ ∃ c ∈ t, c.isSurrogate
  writable : ∃ files, m.files.write path [] = .ok files

/-- **Failed runs and their output.** Take a run that reads its arguments, and whose code touches no files and prints
nothing. If it fails it has printed nothing, and has left all files as they were unless it empties its output file. It does
that if the text it makes holds a surrogate, for a file that can be written: then it fails at encoding the text, and leaves
that file empty and all else as it was. -/
theorem failed_run_output {q : Request} {o : Options} (hparse : Options.parse q.arguments = .ok o)
    (hcode : q.Spares o Machine.output) (m : Machine) :
    (∀ a m', (run q).from m = (.error a, m') →
      m'.printed = [] ∧ ((∀ path, ¬ Empties q o m path) → m'.files = m.files)) ∧
      ∀ path, Empties q o m path →
        ∃ message m', (run q).from m = (.error (.failure (.saying "UnicodeEncodeError" message)), m') ∧
          m'.files.content? path = .ok (some []) ∧
          ∀ p, m.files.place path ≠ .ok p → m'.files.node? p = m.files.node? p := by
  constructor
  · intro a m' h
    rcases run_failed hparse h with hproduce | ⟨t, m₁, hproduce, hdeliver⟩
    · obtain ⟨hfiles, hprinted⟩ := output_of_produce hcode hproduce
      exact ⟨hprinted, fun _ => hfiles⟩
    · obtain ⟨hfiles, hprinted⟩ := output_of_produce hcode hproduce
      obtain ⟨hsaid, hleft⟩ := deliver_failed hdeliver
      refine ⟨hsaid.trans hprinted, fun hkept => ?_⟩
      rcases hleft with hsame | ⟨path, files, houtput, hne, hsurrogate, hwrite⟩
      · exact hsame.trans hfiles
      · rw [hfiles] at hwrite
        exact absurd ⟨houtput, hne, ⟨t, by rw [hproduce], hsurrogate⟩, files, hwrite⟩ (hkept path)
  · rintro path ⟨houtput, hne, ⟨t, hmade, hsurrogate⟩, files, hwrite⟩
    cases hproduce : (produce q o).from m with
    | mk result m₁ =>
      rw [hproduce] at hmade
      obtain rfl : result = .ok t := hmade
      obtain ⟨hfiles, _⟩ := output_of_produce hcode hproduce
      obtain ⟨message, hdeliver⟩ := deliver_surrogate q houtput hne hsurrogate (hfiles.symm ▸ hwrite)
      exact ⟨message, _, run_of_deliver hparse hproduce hdeliver, FileTree.content?_write hwrite,
        fun p hp => FileTree.node?_write hwrite hp⟩

/-- a run over a file, or over its input, which is a surrogate's escape; the result goes to another file -/
def writing (file : Text) : Request :=
  { host := .bare, arguments := [text "-o", text "out.txt", file], input := .given (text "\\ud800"), now := .none }

/-- a machine on which there is something in that other file, and nothing else -/
def keeping : Machine := { files := [([text "out.txt"], .file [0x6B, 0x65, 0x65, 0x70])] }

theorem parse_writing_input :
    Options.parse (writing (text "-")).arguments = .ok { output := some (text "out.txt") } := by cbv

/-- a missing file changes nothing, and a surrogate empties the output file -/
theorem failed_run_output_keeping :
    (∃ a m', (run (writing (text "in.txt"))).from keeping = (.error a, m') ∧ m'.printed = [] ∧
        m'.files = keeping.files) ∧
      ∃ message m', (run (writing (text "-"))).from keeping =
          (.error (.failure (.saying "UnicodeEncodeError" message)), m') ∧
        m'.files.content? (text "out.txt") = .ok (some []) := by
  constructor
  · have hparse : Options.parse (writing (text "in.txt")).arguments =
        .ok { file := text "in.txt", output := some (text "out.txt") } := by cbv
    have hfails : ((run (writing (text "in.txt"))).from keeping).1.toOption = none := by cbv
    have hunmade : ((produce (writing (text "in.txt")) { file := text "in.txt", output := some (text "out.txt") }).from
        keeping).1.toOption = none := by cbv
    cases hrun : (run (writing (text "in.txt"))).from keeping with
    | mk result m' =>
      rw [hrun] at hfails
      cases result with
      | ok t => cases hfails
      | error a =>
        obtain ⟨hprinted, hkept⟩ := (failed_run_output hparse (acts_of_lookup (by decide) rfl) keeping).1 a m' hrun
        refine ⟨a, m', rfl, hprinted, hkept fun path hempties => ?_⟩
        obtain ⟨t, hmade, _⟩ := hempties.surrogate
        rw [hmade] at hunmade
        cases hunmade
  · have hmade : ((produce (writing (text "-")) { output := some (text "out.txt") }).from keeping).1 =
        .ok [⟨0xD800, by decide⟩] := by cbv
    have hempties : Empties (writing (text "-")) { output := some (text "out.txt") } keeping (text "out.txt") :=
      ⟨rfl, by decide, ⟨_, hmade, by decide⟩, [([text "out.txt"], .file [])], by cbv⟩
    obtain ⟨message, m', hrun, hcontent, _⟩ :=
      (failed_run_output parse_writing_input (acts_of_lookup (by decide) rfl) keeping).2 _ hempties
    exact ⟨message, m', hrun, hcontent⟩

/-- a failed run can change its output file, even if no code does -/
theorem failed_run_changes_output : ¬ ∀ (q : Request) (o : Options) (m m' : Machine) (a : Abort) (path : Text),
    Options.parse q.arguments = .ok o → q.Spares o Machine.output → (run q).from m = (.error a, m') →
      o.output = some path → m'.files.content? path = m.files.content? path := by
  intro h
  have hfails : ((run (writing (text "-"))).from keeping).1.toOption = none := by cbv
  have hempty : ((run (writing (text "-"))).from keeping).2.files.content? (text "out.txt") = .ok (some []) := by cbv
  cases hrun : (run (writing (text "-"))).from keeping with
  | mk result m' =>
    rw [hrun] at hfails hempty
    cases result with
    | ok t => cases hfails
    | error a =>
      have hkept := h _ _ _ _ _ (text "out.txt") parse_writing_input (acts_of_lookup (by decide) rfl) hrun rfl
      have hfull : keeping.files.content? (text "out.txt") = .ok (some [0x6B, 0x65, 0x65, 0x70]) := by cbv
      cases hempty.symm.trans (hkept.trans hfull)

end Command

end PercentLiteral
