import DurableQueue.Settings.Group

/-!
# Live settings

A cell holds the live value of a group of settings and counts its changes. Observers are asked
before a change and may refuse it.

An update to the value that is already there does nothing. Otherwise the observers are told the old
and the new value, one after the other in the order of their registration. When one refuses, those
that had accepted are told the change back, the latest first, and nothing changes; otherwise the
new value is installed.

* `Cell` is generic in what an observer is; `tell` answers for it and may change a state of its own;
* `Cell.trySet` returns the summary of the change or the error of the observer that refused, and
  `Cell.set` the empty text instead of an error;
* `Cell.register` and `Cell.unregister` change the observers.
-/

namespace DurableQueue

/-- The number under which an observer was registered. -/
abbrev ObserverId := Nat

/-- A live value with the count of its changes and its observers, oldest first. -/
structure Cell (α ω : Type) where
  value : α
  version : Nat := 0
  observers : List (ObserverId × ω) := []
  nextObserver : ObserverId := 0

namespace Cell

variable {α ω σ : Type}

/-- The answer of an observer that is told an old and a new value. -/
abbrev Tell (α ω σ : Type) := ω → α → α → σ → Except SettingError Unit × σ

/-- A cell with a first value and no observers. -/
def new (value : α) : Cell α ω := { value }

/-- Register an observer behind all others. -/
def register (c : Cell α ω) (o : ω) : ObserverId × Cell α ω :=
  (c.nextObserver,
   { c with observers := c.observers ++ [(c.nextObserver, o)], nextObserver := c.nextObserver + 1 })

/-- Remove an observer; says whether there was one. -/
def unregister (c : Cell α ω) (id : ObserverId) : Bool × Cell α ω :=
  let left := c.observers.filter (·.1 != id)
  (left.length != c.observers.length, { c with observers := left })

/-- Tell observers a change back, whatever they answer. -/
def replay (tell : Tell α ω σ) (old new : α) : List ω → σ → σ
  | [], s => s
  | o :: os, s => replay tell old new os (tell o new old s).2

/-- Tell observers a change until one refuses; `accepted` are those told before, latest first. -/
def propose (tell : Tell α ω σ) (old new : α) : List ω → List ω → σ → Except SettingError Unit × σ
  | [], _, s => (.ok (), s)
  | o :: os, accepted, s =>
    match tell o old new s with
    | (.ok (), s) => propose tell old new os (o :: accepted) s
    | (.error e, s) => (.error e, replay tell old new accepted s)

variable [SettingGroup α]

/-- Change the value, if it is another one and no observer refuses. -/
def trySet (tell : Tell α ω σ) (c : Cell α ω) (new : α) (s : σ) :
    Except SettingError String × Cell α ω × σ :=
  if c.value == new then (.ok "", c, s)
  else
    match propose tell c.value new (c.observers.map (·.2)) [] s with
    | (.ok (), s) =>
      (.ok (SettingGroup.summary c.value new), { c with value := new, version := c.version + 1 }, s)
    | (.error e, s) => (.error e, c, s)

/-- Change the value; the summary is empty when nothing changed, for whatever reason. -/
def set (tell : Tell α ω σ) (c : Cell α ω) (new : α) (s : σ) : String × Cell α ω × σ :=
  match c.trySet tell new s with
  | (.ok summary, c, s) => (summary, c, s)
  | (.error _, c, s) => ("", c, s)

end Cell

end DurableQueue
