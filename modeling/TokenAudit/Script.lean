import TokenAudit.TokenSource

/-!
# Scripted token sources

A script hands out a fixed list of tokens and then the end of the stream for ever.  It may be told
to break down at one pull.  The fault counts as a pull but takes no token.
-/

namespace TokenAudit

/-- A scripted token source. -/
structure Script where
  /-- The tokens not pulled yet. -/
  tokens : List Token
  /-- The pull, counted from zero, that faults, with the message of the fault. -/
  fault? : Option (Nat × String) := none
  /-- The number of pulls so far. -/
  pulls : Nat := 0
  /-- The position of the token pulled last. -/
  position : Position := .start
  /-- Whether the source was closed. -/
  closed : Bool := false
  deriving DecidableEq, Repr

namespace Script

/-- A fresh script. -/
def ofTokens (tokens : List Token) (fault? : Option (Nat × String)) : Script :=
  { tokens, fault? }

/-- The message of the fault that the next pull meets, if it does. -/
def pendingFault? (script : Script) : Option String :=
  match script.fault? with
  | some (pull, message) => if pull = script.pulls then some message else none
  | none => none

/-- Hands out the next token, or the end of the stream at the last position. -/
def deliver (script : Script) : Token × Script :=
  match script.tokens with
  | [] => (.eof script.position, script)
  | token :: tokens => (token, { script with tokens, position := token.position })

/-- One pull. -/
def pull (script : Script) : Except Fault Token × Script :=
  let counted := { script with pulls := script.pulls + 1 }
  match script.pendingFault? with
  | some message => (.error (.injected message), counted)
  | none =>
    let (token, after) := counted.deliver
    (.ok token, after)

/-- Marks the source closed.  Pulls go on as before. -/
def close (script : Script) : Script := { script with closed := true }

instance : TokenSource Script where
  pull script := pure script.pull
  close := close
  position := position

/-- A token before the end is taken from the script. -/
theorem length_tokens_pull_lt {script : Script} (h : isLastAnswer script.pull.1 = false) :
    script.pull.2.tokens.length < script.tokens.length := by
  unfold pull at h ⊢
  cases hfault : script.pendingFault? with
  | some message => simp [hfault, isLastAnswer] at h
  | none =>
    cases htokens : script.tokens with
    | nil =>
      simp only [hfault, deliver, htokens] at h
      cases h
    | cons token tokens => simp [deliver]

instance : FiniteSource Script where
  remaining script := script.tokens.length
  remaining_next _ h := length_tokens_pull_lt h

end Script

end TokenAudit
