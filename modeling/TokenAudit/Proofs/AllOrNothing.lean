import TokenAudit.CommandLine.Run
import TokenAudit.Proofs.Judgement

/-!
# Audits are all or nothing

An audit ends in one of six ways, and `Conclusion` lists them with what is left in the file system.
If the artifact is put in place, the output holds all of it and nothing else has changed.  If it is
not, one of the steps had to fail, and nothing at all has changed.

* `conclusion_of_puts`: the conclusion that belongs to a judgement and to what became of its
  artifact.
* `run_is_all_or_nothing`: every audit is concluded, and its artifact is put in place exactly if the
  file system admits it.
-/

namespace TokenAudit

namespace Audit

open FileSystem

variable {κ : Type} [TokenSink κ]

/-- The output holds exactly a text, and every other place holds what it held. -/
structure Leaves (fs files : FileSystem) (output text : String) : Prop where
  read_eq : files.read output = .ok text.toUTF8
  replaced : ∃ target, Replaced fs files output target text.toUTF8

/-- The ways in which an audit ends: the file system it leaves, its result and the exit status. -/
inductive Conclusion (fs : FileSystem) (input output : String) (files : FileSystem) :
    Except AuditError Outcome → Nat → Prop
  /-- Every token of the input is content, and the output lists them. -/
  | accepted {bytes : ByteArray} {text : String} {front : List Token} {stop : Position} :
      fs.read input = .ok bytes → String.fromUTF8? bytes = some text →
      (Scan.ofText text.toList).tokens.value = front ++ [.eof stop] →
      (∀ t ∈ front, t.isContent = true) →
      Leaves fs files output ("\n".intercalate (front.map Token.text)) →
      Conclusion fs input output files (.ok (.accepted front.length)) 0
  /-- The input has an error, and the output is marked. -/
  | rejected {bytes : ByteArray} {text : String} : fs.read input = .ok bytes →
      String.fromUTF8? bytes = some text →
      (∃ t ∈ (Scan.ofText text.toList).tokens.value, t.isError = true) →
      Leaves fs files output "ERROR" → Conclusion fs input output files (.ok .rejected) 1
  /-- The input cannot be read, and the output is marked. -/
  | unreadable {cause : IoError} : fs.read input = .error cause → Leaves fs files output "ERROR" →
      Conclusion fs input output files (.error (.scan (.unreadable input cause))) 2
  /-- The input is no text, and the output is marked. -/
  | notUtf8 {bytes : ByteArray} : fs.read input = .ok bytes → String.fromUTF8? bytes = none →
      Leaves fs files output "ERROR" →
      Conclusion fs input output files (.error (.scan (.notUtf8 input))) 2
  /-- No temporary file can be created and filled with the artifact, and nothing has changed. -/
  | unheld {judgement : Except Fault Verdict} {cause : IoError} : Judges fs input judgement →
      (∀ directory, ¬ Holds fs (Path.directory output) (artifactOf judgement).contents.toUTF8
        directory) →
      files = fs → Conclusion fs input output files (.error (.write (.write output cause))) 2
  /-- The temporary file cannot take the place of the output, and nothing has changed. -/
  | unplaced {judgement : Except Fault Verdict} {directory : Place} {cause : IoError} :
      Judges fs input judgement →
      Holds fs (Path.directory output) (artifactOf judgement).contents.toUTF8 directory →
      (∀ target, ¬ Receives fs (fs.temporaryIn directory) output target) →
      files = fs → Conclusion fs input output files (.error (.write (.replace output cause))) 2

/-- A judgement whose artifact is in place is concluded. -/
theorem conclusion_of_replaced {fs files : FileSystem} {input output : String} {target : Place}
    {judgement : Except Fault Verdict} (hjudges : Judges fs input judgement)
    (h : Replaced fs files output target (artifactOf judgement).contents.toUTF8) :
    Conclusion fs input output files (conclude judgement output (.ok ())).value
      (CommandLine.exitOf (conclude judgement output (.ok ())).value).1 := by
  have hleaves : Leaves fs files output (artifactOf judgement).contents :=
    ⟨h.read_eq, target, h⟩
  cases hjudges with
  | unreadable hread => exact .unreadable hread hleaves
  | notUtf8 hread hutf8 => exact .notUtf8 hread hutf8 hleaves
  | @text bytes text hread hutf8 =>
      have htokens := Scan.tokens_ofText text.toList
      cases hverdict : Scan.verdict text.toList with
      | accepted listing =>
          obtain ⟨hcontent, hlisting⟩ := Scan.verdict_eq_accepted_iff.1 hverdict
          have hsize : listing.size = (tokensFrom .start text.toList).length := by
            rw [← Listing.length_toList, hlisting, List.length_map]
          have hcontents : (artifactOf (.ok (Scan.verdict text.toList))).contents =
              "\n".intercalate ((tokensFrom .start text.toList).map Token.text) := by
            rw [hverdict, ← hlisting]
            rfl
          rw [hcontents] at hleaves
          show Conclusion fs input output files (.ok (.accepted listing.size)) 0
          rw [hsize]
          exact .accepted hread hutf8 htokens hcontent hleaves
      | rejected =>
          obtain ⟨t, ht, herror⟩ := Scan.verdict_eq_rejected_iff.1 hverdict
          rw [hverdict] at hleaves
          refine .rejected hread hutf8 ⟨t, ?_, herror⟩ hleaves
          rw [htokens]
          exact List.mem_append_left _ ht

/-- What became of the artifact of a judgement concludes the audit. -/
theorem conclusion_of_puts {fs : FileSystem} {input output : String}
    {judgement : Except Fault Verdict} (hjudges : Judges fs input judgement)
    {written : Except ArtifactError Unit × FileSystem}
    (h : Artifact.Puts fs output (artifactOf judgement).contents.toUTF8 written) :
    Conclusion fs input output written.2 (conclude judgement output written.1).value
      (CommandLine.exitOf (conclude judgement output written.1).value).1 := by
  cases h with
  | unheld hunheld => exact .unheld hjudges hunheld rfl
  | unplaced hholds hunplaced => exact .unplaced hjudges hholds hunplaced rfl
  | placed _ _ hreplaced => exact conclusion_of_replaced hjudges hreplaced

/-- Only a failure to write is reported as one. -/
theorem conclude_ne_write_iff {judgement : Except Fault Verdict} {output : String}
    {written : Except ArtifactError Unit} :
    (∀ error, (conclude judgement output written).value ≠ .error (.write error)) ↔
      written = .ok () := by
  cases written with
  | error error => simp [conclude]
  | ok done => cases judgement <;> simp [conclude]

/-- An audit leaves the whole artifact and nothing else, or nothing at all, and no file stands where
none stood but the output.  It puts its artifact in place if and only if the directory of the output
is there, the last name of the output is one that a file can have and no directory has, and the
system refuses no step; whether the input is a fault has no say in that. -/
theorem run_is_all_or_nothing (fs : FileSystem) (input output : String) (sink : κ) :
    let report := (runWithSink fs input output sink).value
    Conclusion fs input output report.files report.result (CommandLine.exitOf report.result).1 ∧
      (∀ place, report.files.lookup place ≠ none →
        fs.lookup place ≠ none ∨ report.files.locate output = .ok place) ∧
      ((∀ error, report.result ≠ .error (.write error)) ↔
        ∃ judgement directory, Judges fs input judgement ∧
          Admits fs output (artifactOf judgement).contents.toUTF8 directory) := by
  dsimp only
  rw [result_runWithSink, files_runWithSink]
  have hjudges := judges_judged fs input sink
  generalize judged fs input sink = judgement at hjudges ⊢
  have hwritten := (artifactOf judgement).writeTo_eq_ok_iff fs output
  have hputs := (artifactOf judgement).puts_writeTo fs output
  generalize (artifactOf judgement).writeTo fs output = written at hwritten hputs ⊢
  refine ⟨conclusion_of_puts hjudges hputs, fun place => hputs.lookup_ne_none, ?_⟩
  rw [conclude_ne_write_iff, hwritten]
  constructor
  · rintro ⟨directory, hadmits⟩
    exact ⟨judgement, directory, hjudges, hadmits⟩
  · -- An input has one judgement only.
    rintro ⟨other, directory, hother, hadmits⟩
    obtain rfl := hjudges.unique hother
    exact ⟨directory, hadmits⟩

end Audit

end TokenAudit
