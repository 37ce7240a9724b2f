import SelfNodeRemediation.Lib.Interaction

/-!
# Runs with a record of their calls

A history variable for the runs of `Lib.Interaction`: every call is recorded with its
answer and with the world it was made in, newest first. Nothing reads the record, so
`Reachable.record` gives one to every run and `Reachable.forget` takes it away.
-/

namespace Interaction

variable {Call : Type} {Resp : Call → Type} {W α : Type}

/-- A call, the world it was made in, and its answer. -/
structure Event (Call : Type) (Resp : Call → Type) (W : Type) where
  call : Call
  world : W
  answer : Resp call

/-- A world with a record of the calls, newest first. -/
structure Recorded (Call : Type) (Resp : Call → Type) (W : Type) where
  world : W
  record : List (Event Call Resp W)

variable {exec : (c : Call) → W → Resp c → W → Prop} {env : W → W → Prop}

/-- The call is recorded. -/
def recordExec (exec : (c : Call) → W → Resp c → W → Prop) (c : Call)
    (w : Recorded Call Resp W) (r : Resp c) (w' : Recorded Call Resp W) : Prop :=
  exec c w.world r w'.world ∧ w'.record = ⟨c, w.world, r⟩ :: w.record

def recordEnv (env : W → W → Prop) (w w' : Recorded Call Resp W) : Prop :=
  env w.world w'.world ∧ w'.record = w.record

variable {main : Prog Call Resp α} {w₀ : W}

/-- Every run has a record. -/
theorem Reachable.record {s : State Call Resp W α} (h : Reachable exec env main w₀ s) :
    ∃ record, Reachable (recordExec exec) (recordEnv env) main ⟨w₀, []⟩
      ⟨⟨s.world, record⟩, s.running⟩ := by
  induction h with
  | refl => exact ⟨[], .refl⟩
  | tail _ hs ih =>
    obtain ⟨record, ih⟩ := ih
    cases hs with
    | env he => exact ⟨record, ih.tail (.env ⟨he, rfl⟩)⟩
    | start => exact ⟨record, ih.tail .start⟩
    | call he => exact ⟨_, ih.tail (.call ⟨he, rfl⟩)⟩
    | finish => exact ⟨record, ih.tail .finish⟩
    | crash => exact ⟨record, ih.tail .crash⟩

theorem Reachable.forget {w : Recorded Call Resp W} {s : State Call Resp (Recorded Call Resp W) α}
    (h : Reachable (recordExec exec) (recordEnv env) main w s) :
    Reachable exec env main w.world ⟨s.world.world, s.running⟩ := by
  induction h with
  | refl => exact .refl
  | tail _ hs ih =>
    refine ih.tail ?_
    cases hs with
    | env he => exact .env he.1
    | start => exact .start
    | call he => exact .call he.1
    | finish => exact .finish
    | crash => exact .crash

end Interaction
