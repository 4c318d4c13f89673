import DurableQueue.Program

/-!
# Monitors of programs

A monitor watches the requests of a program. Its state is what it remembers of the answers so far,
and its rule says which requests may be made in a state.

* `Monitor`, and `Program.Obeys`: the rule is kept whatever the answers are, and a condition holds
  of the value and of the last state;
* `obeys_bind`, `Obeys.mono`, `Obeys.weaken`, `Obeys.interpret`: how programs that keep a rule are
  put together;
* `Leads` is a course of a program, a list of exchanges of a request for an answer; every course
  of a program that keeps a rule keeps it at each exchange (`Obeys.keeps`).
-/

namespace DurableQueue

variable {S T : Signature} {α β σ τ : Type}

/-- A rule for requests that depends on the answers so far. -/
structure Monitor (S : Signature) (σ : Type) where
  /-- The requests that may be made. -/
  Allows : σ → S.Request → Prop
  /-- What is remembered after an answer. -/
  after : σ → (r : S.Request) → S.Answer r → σ

/-- A request and its answer. -/
structure Exchange (S : Signature) where
  request : S.Request
  answer : S.Answer request

namespace Program

variable {m : Monitor S σ} {post : α → σ → Prop}

/-- A program keeps the rule of a monitor from a state on, whatever the answers are, and ends with
a value and in a state that satisfy a condition. -/
def Obeys (m : Monitor S σ) (post : α → σ → Prop) : Program S α → σ → Prop
  | .done a, s => post a s
  | .ask r next, s => m.Allows s r ∧ ∀ a, Obeys m post (next a) (m.after s r a)

@[simp] theorem obeys_ask {r : S.Request} {next : S.Answer r → Program S α} {s : σ} :
    (ask r next).Obeys m post s ↔ m.Allows s r ∧ ∀ a, (next a).Obeys m post (m.after s r a) :=
  Iff.rfl

/-- The second program of a sequence takes over from where the first one ends. -/
theorem obeys_bind {p : Program S α} {f : α → Program S β} {post : β → σ → Prop} {s : σ} :
    (p.bind f).Obeys m post s ↔ p.Obeys m (fun a t => (f a).Obeys m post t) s := by
  induction p generalizing s with
  | done => rfl
  | ask r next ih => exact and_congr_right fun _ => forall_congr' fun a => ih a

theorem Obeys.mono {post' : α → σ → Prop} {p : Program S α} {s : σ} (h : p.Obeys m post s)
    (himp : ∀ a t, post a t → post' a t) : p.Obeys m post' s := by
  induction p generalizing s with
  | done a => exact himp a s h
  | ask r next ih => exact ⟨h.1, fun a => ih a (h.2 a)⟩

/-- A program that keeps a rule keeps every rule that forbids less. -/
theorem Obeys.weaken {m' : Monitor S σ} {p : Program S α} {s : σ} (h : p.Obeys m post s)
    (hallows : ∀ s r, m.Allows s r → m'.Allows s r)
    (hafter : ∀ s r a, m'.after s r a = m.after s r a) : p.Obeys m' post s := by
  induction p generalizing s with
  | done a => exact h
  | ask r next ih =>
    refine ⟨hallows s r h.1, fun a => ?_⟩
    rw [hafter]
    exact ih a (h.2 a)

theorem Obeys.bind {p : Program S α} {f : α → Program S β} {post' : β → σ → Prop} {s : σ}
    (hp : p.Obeys m post s) (hf : ∀ a t, post a t → (f a).Obeys m post' t) :
    (p.bind f).Obeys m post' s :=
  obeys_bind.2 (hp.mono hf)

/-- A program interpreted by programs that keep a rule keeps it, when the answers are taken along
by a relation between the states of both monitors. -/
theorem Obeys.interpret {n : Monitor T τ} {inner : (r : S.Request) → Program T (S.Answer r)}
    {R : σ → τ → Prop}
    (hinner : ∀ s t r, R s t → m.Allows s r →
      (inner r).Obeys n (fun a t' => R (m.after s r a) t') t)
    {p : Program S α} {s : σ} {t : τ} (hR : R s t) (h : p.Obeys m post s) :
    (p.interpret inner).Obeys n (fun a t' => ∃ s', post a s' ∧ R s' t') t := by
  induction p generalizing s t with
  | done a => exact ⟨s, h, hR⟩
  | ask r next ih =>
    exact (hinner s t r hR h.1).bind fun a t' hR' => ih a hR' (h.2 a)

/-- A program interpreted by programs that lead from good states to good states does so itself. -/
theorem obeys_interpret {n : Monitor T τ} {inner : (r : S.Request) → Program T (S.Answer r)}
    {Good : τ → Prop} (hinner : ∀ r t, Good t → (inner r).Obeys n (fun _ => Good) t)
    {p : Program S α} {t : τ} (ht : Good t) : (p.interpret inner).Obeys n (fun _ => Good) t := by
  induction p generalizing t with
  | done a => exact ht
  | ask r next ih => exact (hinner r t ht).bind fun a t' h => ih a h

end Program

/-! ### Courses -/

namespace Monitor

variable (m : Monitor S σ)

/-- What is remembered after several exchanges. -/
def afterAll (s : σ) (es : List (Exchange S)) : σ :=
  es.foldl (fun s e => m.after s e.request e.answer) s

@[simp] theorem afterAll_nil (s : σ) : m.afterAll s [] = s := rfl

@[simp] theorem afterAll_cons (s : σ) (e : Exchange S) (es : List (Exchange S)) :
    m.afterAll s (e :: es) = m.afterAll (m.after s e.request e.answer) es := rfl

theorem afterAll_append (s : σ) (es es' : List (Exchange S)) :
    m.afterAll s (es ++ es') = m.afterAll (m.afterAll s es) es' := List.foldl_append

/-- What a state collects from the exchanges is collected in their order. -/
theorem afterAll_collects {γ : Type} {m : Monitor S σ} (read : σ → List γ)
    (part : (r : S.Request) → S.Answer r → List γ)
    (hafter : ∀ s r a, read (m.after s r a) = read s ++ part r a) (s : σ)
    (es : List (Exchange S)) :
    read (m.afterAll s es) = read s ++ es.flatMap fun e => part e.request e.answer := by
  induction es generalizing s with
  | nil => simp
  | cons e es ih => rw [afterAll_cons, ih, hafter, List.append_assoc, List.flatMap_cons]

/-- Every exchange has a request that may be made in the state at that point. -/
def Keeps (s : σ) (es : List (Exchange S)) : Prop :=
  ∀ before e later, es = before ++ e :: later → m.Allows (m.afterAll s before) e.request

variable {m} {s : σ} {e : Exchange S} {es es' : List (Exchange S)}

@[simp] theorem keeps_nil : m.Keeps s [] := by
  intro before e later h
  cases before <;> cases h

theorem keeps_cons :
    m.Keeps s (e :: es) ↔ m.Allows s e.request ∧ m.Keeps (m.after s e.request e.answer) es := by
  constructor
  · intro h
    exact ⟨h [] e es rfl, fun before e' later heq => h (e :: before) e' later (by rw [heq]; rfl)⟩
  · rintro ⟨he, hes⟩ before e' later heq
    cases before with
    | nil =>
      obtain ⟨rfl, rfl⟩ := List.cons.inj heq
      exact he
    | cons b before =>
      obtain ⟨rfl, hrest⟩ := List.cons.inj heq
      exact hes before e' later hrest

theorem keeps_append : m.Keeps s (es ++ es') ↔ m.Keeps s es ∧ m.Keeps (m.afterAll s es) es' := by
  induction es generalizing s with
  | nil => simp
  | cons e es ih => rw [List.cons_append, keeps_cons, keeps_cons, ih, and_assoc, afterAll_cons]

theorem Keeps.allows (h : m.Keeps s es) (he : e ∈ es) : ∃ t, m.Allows t e.request := by
  obtain ⟨before, later, rfl⟩ := List.append_of_mem he
  exact ⟨_, h before e later rfl⟩

/-- What an allowed request cannot undo is not undone by several of them. -/
theorem Keeps.stays (used : σ → Prop)
    (hstays : ∀ s r a, m.Allows s r → used s → used (m.after s r a)) (h : m.Keeps s es)
    (hs : used s) : used (m.afterAll s es) := by
  induction es generalizing s with
  | nil => exact hs
  | cons e es ih =>
    obtain ⟨he, hes⟩ := keeps_cons.1 h
    exact ih hes (hstays s e.request e.answer he hs)

/-- Requests that are allowed only until the first one of them are made at most once. -/
theorem Keeps.countP_le_one (p : S.Request → Bool) (used : σ → Prop)
    (hfirst : ∀ s r, m.Allows s r → p r = true → ¬ used s)
    (huses : ∀ s r a, m.Allows s r → p r = true → used (m.after s r a))
    (hstays : ∀ s r a, m.Allows s r → used s → used (m.after s r a)) (h : m.Keeps s es) :
    es.countP (fun e => p e.request) ≤ 1 ∧ (used s → es.countP (fun e => p e.request) = 0) := by
  induction es generalizing s with
  | nil => simp
  | cons e es ih =>
    obtain ⟨he, hes⟩ := keeps_cons.1 h
    obtain ⟨hone, hzero⟩ := ih hes
    rw [List.countP_cons]
    by_cases hp : p e.request = true
    · -- the first such request, after which there is no other
      rw [hzero (huses s e.request e.answer he hp), if_pos hp]
      exact ⟨Nat.le_refl 1, fun hs => absurd hs (hfirst s e.request he hp)⟩
    · rw [if_neg hp]
      exact ⟨hone, fun hs => hzero (hstays s e.request e.answer he hs)⟩

end Monitor

namespace Program

/-- A program makes several exchanges and goes on as another one. -/
inductive Leads : Program S α → List (Exchange S) → Program S α → Prop
  | refl (p : Program S α) : Leads p [] p
  | ask {r : S.Request} {next : S.Answer r → Program S α} {q : Program S α}
      {es : List (Exchange S)} (a : S.Answer r) (h : Leads (next a) es q) :
      Leads (.ask r next) (⟨r, a⟩ :: es) q

variable {m : Monitor S σ} {post : α → σ → Prop} {p q : Program S α} {s : σ}
  {es : List (Exchange S)}

/-- Every course of a program that keeps a rule keeps it, and so does what is left to do. -/
theorem Obeys.keeps (h : p.Obeys m post s) (hes : p.Leads es q) :
    m.Keeps s es ∧ q.Obeys m post (m.afterAll s es) := by
  induction hes generalizing s with
  | refl p => exact ⟨Monitor.keeps_nil, h⟩
  | ask a hes ih =>
    obtain ⟨hkeeps, hq⟩ := ih (h.2 a)
    exact ⟨Monitor.keeps_cons.2 ⟨h.1, hkeeps⟩, hq⟩

end Program

end DurableQueue
