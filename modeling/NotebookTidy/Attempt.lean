import NotebookTidy.Event

/-! Attempts: what happens among some files, and what comes of it.

An attempt that fails keeps the events that led up to the failure, and the changes that
were made to files until then. One attempt after another tells the events of both, unless
the first one fails. -/
namespace NotebookTidy
open Files

/-- What an attempt leaves behind. -/
structure Done (α : Type) where
  tree : Tree
  events : List Event
  outcome : Except Failure α

structure Attempt (α : Type) where
  run : Tree → Done α

namespace Attempt
variable {α β : Type}

/-- Nothing happens. -/
def of (outcome : Except Failure α) : Attempt α := ⟨fun t => ⟨t, [], outcome⟩⟩

def succeed (a : α) : Attempt α := of (.ok a)

def fail (f : Failure) : Attempt α := of (.error f)

def tell (e : Event) : Attempt Unit := ⟨fun t => ⟨t, [e], .ok ()⟩⟩

/-- Looks at the files. -/
def look (f : Tree → Except IoError α) : Attempt α := ⟨fun t => ⟨t, [], (f t).mapError .io⟩⟩

/-- Changes the files, or leaves them as they are if that is not possible. -/
def change (f : Tree → Except IoError Tree) : Attempt Unit :=
  ⟨fun t => match f t with
    | .ok changed => ⟨changed, [], .ok ()⟩
    | .error e => ⟨t, [], .error (.io e)⟩⟩

/-- Starts a command. -/
def start (run : Runner) (command : Command) (streams : Streams) : Attempt Outcome :=
  ⟨fun t => let (outcome, t) := run command streams t; ⟨t, [], .ok outcome⟩⟩

/-- Takes the outcome as a result, also if it is a failure. -/
def caught (x : Attempt α) : Attempt (Except Failure α) :=
  ⟨fun t => let done := x.run t; ⟨done.tree, done.events, .ok done.outcome⟩⟩

def andThen (x : Attempt α) (f : α → Attempt β) : Attempt β :=
  ⟨fun t =>
    let first := x.run t
    match first.outcome with
    | .error e => ⟨first.tree, first.events, .error e⟩
    | .ok a =>
      let second := (f a).run first.tree
      ⟨second.tree, first.events ++ second.events, second.outcome⟩⟩

instance : Monad Attempt where
  pure := succeed
  bind := andThen

@[simp] theorem run_of (o : Except Failure α) (t : Tree) : (of o).run t = ⟨t, [], o⟩ := rfl

@[simp] theorem run_pure (a : α) (t : Tree) : (pure a : Attempt α).run t = ⟨t, [], .ok a⟩ := rfl

@[simp] theorem run_fail (f : Failure) (t : Tree) :
    (fail f : Attempt α).run t = ⟨t, [], .error f⟩ := rfl

@[simp] theorem run_tell (e : Event) (t : Tree) : (tell e).run t = ⟨t, [e], .ok ()⟩ := rfl

@[simp] theorem run_look (f : Tree → Except IoError α) (t : Tree) :
    (look f).run t = ⟨t, [], (f t).mapError .io⟩ := rfl

@[simp] theorem run_caught (x : Attempt α) (t : Tree) :
    x.caught.run t = ⟨(x.run t).tree, (x.run t).events, .ok (x.run t).outcome⟩ := rfl

theorem run_bind_of_ok {x : Attempt α} {t : Tree} {a : α} (h : (x.run t).outcome = .ok a)
    (f : α → Attempt β) :
    (x >>= f).run t = ⟨((f a).run (x.run t).tree).tree,
      (x.run t).events ++ ((f a).run (x.run t).tree).events,
      ((f a).run (x.run t).tree).outcome⟩ := by
  change (andThen x f).run t = _
  simp only [andThen, h]

theorem run_bind_of_error {x : Attempt α} {t : Tree} {e : Failure}
    (h : (x.run t).outcome = .error e) (f : α → Attempt β) :
    (x >>= f).run t = ⟨(x.run t).tree, (x.run t).events, .error e⟩ := by
  change (andThen x f).run t = _
  simp only [andThen, h]

@[simp] theorem pure_bind (a : α) (f : α → Attempt β) : (pure a : Attempt α) >>= f = f a := by
  change andThen (succeed a) f = f a
  simp [andThen, succeed, of]

@[simp] theorem fail_bind (e : Failure) (f : α → Attempt β) :
    (fail e : Attempt α) >>= f = fail e := rfl

end Attempt
end NotebookTidy
