/-!
# Programs that ask

A program computes a value and may ask its surroundings for answers on the way. What the
surroundings are is left open: a store and a consumer, a clock, or a test.

* `Signature` lists the requests and the type of the answer to each;
* `Program` is a program, `Program.ask` its step, and programs form a monad;
* `Program.run` answers all requests from a state, and `Program.interpret` by programs over another
  signature;
* `run_bind` and `run_interpret`: both respect the order of the steps.
-/

namespace DurableQueue

/-- Requests, and the type of the answer to each. -/
structure Signature where
  Request : Type
  Answer : Request → Type

/-- A program that asks for answers until it is done. -/
inductive Program (S : Signature) (α : Type) : Type
  | done (value : α)
  | ask (request : S.Request) (next : S.Answer request → Program S α)

namespace Program

variable {S T : Signature} {α β γ σ : Type}

/-- Go on with the value of a program. -/
def bind : Program S α → (α → Program S β) → Program S β
  | .done a, f => f a
  | .ask r next, f => .ask r fun answer => bind (next answer) f

instance : Monad (Program S) where
  pure := .done
  bind := bind

/-- The program that makes one request and returns the answer. -/
def request (r : S.Request) : Program S (S.Answer r) := .ask r .done

@[simp] theorem pure_eq (a : α) : (pure a : Program S α) = .done a := rfl

@[simp] theorem bind_eq (p : Program S α) (f : α → Program S β) : p >>= f = p.bind f := rfl

@[simp] theorem done_bind (a : α) (f : α → Program S β) : (done a).bind f = f a := rfl

@[simp] theorem ask_bind (r : S.Request) (next : S.Answer r → Program S α)
    (f : α → Program S β) : (ask r next).bind f = .ask r fun answer => (next answer).bind f := rfl

@[simp] theorem bind_done (p : Program S α) : p.bind .done = p := by
  induction p with
  | done => rfl
  | ask r next ih => simp [ih]

theorem bind_assoc (p : Program S α) (f : α → Program S β) (g : β → Program S γ) :
    (p.bind f).bind g = p.bind fun a => (f a).bind g := by
  induction p with
  | done => rfl
  | ask r next ih => simp [ih]

/-- Answer all requests from a state. -/
def run (answer : (r : S.Request) → σ → S.Answer r × σ) : Program S α → σ → α × σ
  | .done a, s => (a, s)
  | .ask r next, s => run answer (next (answer r s).1) (answer r s).2

/-- Answer all requests by programs over another signature. -/
def interpret (answer : (r : S.Request) → Program T (S.Answer r)) : Program S α → Program T α
  | .done a => .done a
  | .ask r next => (answer r).bind fun a => interpret answer (next a)

/-- The second program of a sequence runs from the state that the first one leaves. -/
theorem run_bind (answer : (r : S.Request) → σ → S.Answer r × σ) (p : Program S α)
    (f : α → Program S β) (s : σ) :
    (p.bind f).run answer s = (f (p.run answer s).1).run answer (p.run answer s).2 := by
  induction p generalizing s with
  | done => rfl
  | ask r next ih => simp [run, ih]

/-- Interpreting a program and running the result is running it with each answer run. -/
theorem run_interpret (inner : (r : S.Request) → Program T (S.Answer r))
    (answer : (r : T.Request) → σ → T.Answer r × σ) (p : Program S α) (s : σ) :
    (p.interpret inner).run answer s = p.run (fun r => (inner r).run answer) s := by
  induction p generalizing s with
  | done => rfl
  | ask r next ih => simp [interpret, run, run_bind, ih]

end Program

end DurableQueue
