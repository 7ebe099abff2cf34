import Dialogue.Clock
import Dialogue.Include.Request
/-!
# `Dialogue.Script.Run` — computations that may ask for files and for the time.

A script computes by itself except that it can ask for a file to be included, and for the time. A run is therefore
either done, or it has asked and goes on with the answer. Whoever answers decides what an include means; nothing else
outside a script can touch it. Where a script deals with a failed include itself, the run says so. Main
statement: runs can be done one after another, in whatever way they are grouped.
-/

namespace Dialogue.Script

open Include (Request Answer)

/-- **A computation that may ask for files and for the time.** -/
inductive Run (α : Type)
  | done (a : α)
  | ask (request : Request) (resume : Answer → Run α)
  | now (resume : Instant → Run α)
  /-- The failure of an include is dealt with by the script, and goes no further by itself. -/
  | caught (failure : Failure) (rest : Run α)

namespace Run

/-- One run after another. -/
def bind : Run α → (α → Run β) → Run β
  | done a, f => f a
  | ask q k, f => ask q fun r => (k r).bind f
  | now k, f => now fun t => (k t).bind f
  | caught e x, f => caught e (x.bind f)

instance : Monad Run where
  pure := done
  bind := bind

/-- **Carry out a run**, every request being answered by `answer`, and the time being told by a clock. An answer has
readings of its own. -/
def answering [Monad m] (answer : Clock → Request → m Answer) : Run α → Clock → m α
  | done a, _ => pure a
  | ask q k, clock => do
    let r ← answer clock.first q
    (k r).answering answer clock.rest
  | now k, clock => (k clock.reading).answering answer clock.rest
  | caught _ x, clock => x.answering answer clock

@[simp] theorem done_bind (a : α) (f : α → Run β) : (done a).bind f = f a := rfl

@[simp] theorem ask_bind (q : Request) (k : Answer → Run α) (f : α → Run β) :
    (ask q k).bind f = ask q fun r => (k r).bind f := rfl

@[simp] theorem now_bind (k : Instant → Run α) (f : α → Run β) : (now k).bind f = now fun t => (k t).bind f := rfl

@[simp] theorem caught_bind (e : Failure) (x : Run α) (f : α → Run β) :
    (caught e x).bind f = caught e (x.bind f) := rfl

@[simp] theorem bind_done (x : Run α) : x.bind done = x := by
  induction x with
  | done a => rfl
  | ask q k ih => simp [ih]
  | now k ih => simp [ih]
  | caught e x ih => simp [ih]

theorem bind_assoc (x : Run α) (f : α → Run β) (g : β → Run γ) :
    (x.bind f).bind g = x.bind fun a => (f a).bind g := by
  induction x with
  | done a => rfl
  | ask q k ih => simp [ih]
  | now k ih => simp [ih]
  | caught e x ih => simp [ih]

/-- **One run after another**, in whatever way they are grouped. -/
instance : LawfulMonad Run :=
  LawfulMonad.mk' Run bind_done (fun _ _ => rfl) bind_assoc

end Run

end Dialogue.Script
