/-!
# Runs

A `Run s ε α` acts on a state `s` and answers with an `α`, fails with an error `ε`, or is aborted. The state outlives
failures: what was done before one stays done.

* `bind_run` and its companions — what each operation does to the state, as equations;
* `attempt` — turns every failure into a value, so that it is possible to clean up and then to fail all the same
  (`ofExcept`);
* `catchError` — turns errors into values, and lets aborts pass.
-/

namespace HybridTemplate

/-- Why a run is cut short without being able to report an error. -/
inductive Abort where
  /-- An inclusion was ended that had not been started. -/
  | stackUnderflow
  /-- A step gave up with this message. -/
  | raised (message : String)
deriving DecidableEq, Repr

/-- The abort in words. -/
def Abort.message : Abort → String
  | stackUnderflow => "template stack underflow: pop without a matching push"
  | raised message => message

/-- Why a run has no answer. -/
inductive Failure (ε : Type) where
  | error (e : ε)
  | abort (a : Abort)
deriving DecidableEq, Repr

/-- A computation over a state that answers or fails. -/
def Run (s ε α : Type) : Type :=
  s → Except (Failure ε) α × s

namespace Run

variable {s ε ε' α β : Type}

/-- Runs a computation from a state. -/
def run (x : Run s ε α) (w : s) : Except (Failure ε) α × s :=
  x w

@[ext] theorem ext {x y : Run s ε α} (h : ∀ w, x.run w = y.run w) : x = y :=
  funext h

instance : Monad (Run s ε) where
  pure a := fun w => (.ok a, w)
  bind x f := fun w =>
    match x w with
    | (.ok a, w) => f a w
    | (.error e, w) => (.error e, w)

/-- Fails. -/
def fail (f : Failure ε) : Run s ε α :=
  fun w => (.error f, w)

/-- Fails with an error. -/
def raise (e : ε) : Run s ε α :=
  fail (.error e)

/-- Is aborted. -/
def abort (a : Abort) : Run s ε α :=
  fail (.abort a)

/-- Answers or fails as told. -/
def ofExcept : Except (Failure ε) α → Run s ε α
  | .ok a => pure a
  | .error f => fail f

/-- Looks at the state. -/
def look (g : s → α) : Run s ε α :=
  fun w => (.ok (g w), w)

/-- Changes the state. -/
def modify (g : s → s) : Run s ε Unit :=
  fun w => (.ok (), g w)

/-- Answers with how a computation ends, whichever way that is. -/
def attempt (x : Run s ε α) : Run s ε' (Except (Failure ε) α) :=
  fun w => let (r, w) := x w; (.ok r, w)

/-- Answers with the answer or the error of a computation, unless it is aborted. -/
def catchError (x : Run s ε α) : Run s ε' (Except ε α) :=
  fun w =>
    match x w with
    | (.ok a, w) => (.ok (.ok a), w)
    | (.error (.error e), w) => (.ok (.error e), w)
    | (.error (.abort a), w) => (.error (.abort a), w)

/-! ## Equations -/

section

variable (x : Run s ε α) (f : α → Run s ε β) (w : s)

@[simp] theorem pure_run (a : α) : (pure a : Run s ε α).run w = (.ok a, w) := rfl

theorem bind_run : (x >>= f).run w = match x.run w with
    | (.ok a, w) => (f a).run w
    | (.error e, w) => (.error e, w) := rfl

@[simp] theorem fail_run (e : Failure ε) : (fail e : Run s ε α).run w = (.error e, w) := rfl

@[simp] theorem raise_run (e : ε) : (raise e : Run s ε α).run w = (.error (.error e), w) := rfl

@[simp] theorem abort_run (a : Abort) : (abort a : Run s ε α).run w = (.error (.abort a), w) := rfl

@[simp] theorem look_run (g : s → α) : (look g : Run s ε α).run w = (.ok (g w), w) := rfl

@[simp] theorem modify_run (g : s → s) : (modify g : Run s ε Unit).run w = (.ok (), g w) := rfl

@[simp] theorem ofExcept_run (r : Except (Failure ε) α) : (ofExcept r : Run s ε α).run w = (r, w) := by
  cases r <;> rfl

@[simp] theorem attempt_run : (x.attempt : Run s ε' _).run w = (.ok (x.run w).1, (x.run w).2) := rfl

end

theorem id_map_run (x : Run s ε α) : id <$> x = x := by
  funext w
  show (match x w with | (.ok a, w) => (.ok a, w) | (.error e, w) => (.error e, w)) = x w
  rcases x w with ⟨_ | _, _⟩ <;> rfl

theorem bind_assoc_run {γ : Type} (x : Run s ε α) (f : α → Run s ε β) (g : β → Run s ε γ) :
    x >>= f >>= g = x >>= fun a => f a >>= g := by
  funext w
  show (match (match x w with | (.ok a, w) => f a w | (.error e, w) => (.error e, w)) with
      | (.ok b, w) => g b w | (.error e, w) => (.error e, w)) = match x w with
      | (.ok a, w) => (match f a w with | (.ok b, w) => g b w | (.error e, w) => (.error e, w))
      | (.error e, w) => (.error e, w)
  rcases x w with ⟨_ | _, _⟩ <;> rfl

instance : LawfulMonad (Run s ε) :=
  LawfulMonad.mk' (Run s ε) id_map_run (fun _ _ => rfl) bind_assoc_run

end Run

end HybridTemplate
