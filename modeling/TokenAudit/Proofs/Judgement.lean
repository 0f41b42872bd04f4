import TokenAudit.Proofs.Acceptance
import TokenAudit.Proofs.FileReplacement

/-!
# How an input is judged

An audit judges its input by the bytes that stand there before anything is written.  Bytes that are
a text are judged as that text, and an input that cannot be read or is no UTF-8 is a fault.
-/

namespace TokenAudit.Audit

variable {κ : Type} [TokenSink κ]

theorem value_validate (source : Source) (sink : κ) :
    (validate source sink).value.1 = .ok (Scan.verdict source.text.toList) :=
  Scan.result_run_ofText source.text.toList sink

theorem fromUTF8?_toUTF8 (text : String) : String.fromUTF8? text.toUTF8 = some text := by
  have hvalid : text.toUTF8.IsValidUTF8 := text.isValidUTF8
  rw [String.fromUTF8?, dif_pos hvalid]
  rfl

/-- The judgement that belongs to what reading an input gives. -/
inductive Judges (fs : FileSystem) (input : String) : Except Fault Verdict → Prop
  | unreadable {cause : IoError} : fs.read input = .error cause →
      Judges fs input (.error (.unreadable input cause))
  | notUtf8 {bytes : ByteArray} : fs.read input = .ok bytes → String.fromUTF8? bytes = none →
      Judges fs input (.error (.notUtf8 input))
  | text {bytes : ByteArray} {text : String} : fs.read input = .ok bytes →
      String.fromUTF8? bytes = some text → Judges fs input (.ok (Scan.verdict text.toList))

/-- What reading an input gives has one judgement. -/
theorem Judges.unique {fs : FileSystem} {input : String} {judgement other : Except Fault Verdict}
    (h : Judges fs input judgement) (hother : Judges fs input other) : judgement = other := by
  cases h with
  | unreadable hread =>
      cases hother with
      | unreadable hread' =>
          obtain rfl := Except.error.inj (hread.symm.trans hread')
          rfl
      | notUtf8 hread' | text hread' => cases hread.symm.trans hread'
  | notUtf8 hread hutf8 =>
      cases hother with
      | unreadable hread' => cases hread.symm.trans hread'
      | notUtf8 => rfl
      | text hread' hutf8' =>
          obtain rfl := Except.ok.inj (hread.symm.trans hread')
          cases hutf8.symm.trans hutf8'
  | text hread hutf8 =>
      cases hother with
      | unreadable hread' => cases hread.symm.trans hread'
      | notUtf8 hread' hutf8' =>
          obtain rfl := Except.ok.inj (hread.symm.trans hread')
          cases hutf8.symm.trans hutf8'
      | text hread' hutf8' =>
          obtain rfl := Except.ok.inj (hread.symm.trans hread')
          obtain rfl := Option.some.inj (hutf8.symm.trans hutf8')
          rfl

/-- An audit judges its input by what reading it gives. -/
theorem judges_judged (fs : FileSystem) (input : String) (sink : κ) :
    Judges fs input (judged fs input sink) := by
  unfold judged Source.load Source.ofBytes
  cases hread : fs.read input with
  | error cause => exact .unreadable hread
  | ok bytes =>
      dsimp only
      cases hutf8 : String.fromUTF8? bytes with
      | none => exact .notUtf8 hread hutf8
      | some text =>
          show Judges fs input (validate ⟨text, input⟩ sink).value.1
          rw [value_validate]
          exact .text hread hutf8

/-- An audit of a text that can be read judges that text. -/
theorem judged_of_read {fs : FileSystem} {input text : String}
    (h : fs.read input = .ok text.toUTF8) (sink : κ) :
    judged fs input sink = .ok (Scan.verdict text.toList) := by
  have hjudges := judges_judged fs input sink
  generalize judged fs input sink = judgement at hjudges ⊢
  cases hjudges with
  | unreadable hread =>
      rw [h] at hread
      cases hread
  | notUtf8 hread hutf8 =>
      rw [h] at hread
      cases hread
      rw [fromUTF8?_toUTF8] at hutf8
      cases hutf8
  | text hread hutf8 =>
      rw [h] at hread
      cases hread
      rw [fromUTF8?_toUTF8] at hutf8
      cases hutf8
      rfl

theorem exists_text_of_judged {fs : FileSystem} {input : String} {sink : κ} {verdict : Verdict}
    (h : judged fs input sink = .ok verdict) : ∃ text, verdict = Scan.verdict text := by
  have hjudges := judges_judged fs input sink
  rw [h] at hjudges
  cases hjudges with
  | text _ _ => exact ⟨_, rfl⟩

end TokenAudit.Audit
