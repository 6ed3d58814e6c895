import Subscriptions.Tracker.Registry

namespace Subscriptions.Tracker

/-- What a source tells its observers. -/
inductive Notification
  | next (value : Int)
  | error (message : String)
  | complete
deriving Repr, DecidableEq, Inhabited

/-- After an error or a completion nothing follows. -/
def Notification.isTerminal : Notification → Bool
  | .next _ => false
  | .error _ | .complete => true

/-- The callbacks of an observer, each a program. Only the first is required. -/
structure Observer (π : Type) where
  name : String
  onNext : π
  onError : Option π
  onComplete : Option π
deriving Repr, DecidableEq, Inhabited

namespace Observer

variable {π : Type}

def callback? (o : Observer π) : Notification → Option π
  | .next _ => some o.onNext
  | .error _ => o.onError
  | .complete => o.onComplete

def text (o : Observer π) : String :=
  "Observer \x7b complete: " ++ (if o.onComplete.isSome then "true" else "false") ++ ", .. \x7d"

end Observer

/-- What runs when a handle is released: a program, and then perhaps a failure. -/
structure Teardown (π : Type) where
  name : String
  program : π
  failure : Option ReleaseError
deriving Repr, DecidableEq, Inhabited

/-- One operation on registries, subjects and handles, which go by names. -/
inductive Step
  | registry (name : String)
  | dropRegistry (name : String)
  | acquire (registry : String) (teardown : Teardown (List Step))
  /-- Releases the last acquisition of that name, in the registry it was made in unless another
  one is named. -/
  | release (handle : String) (registry : Option String)
  | releaseAll (registry : String)
  | onDestroy (registry : String)
  | shutdownGlobal
  | inspect (registry : String)
  /-- Runs steps, and then drains the registry. -/
  | scope (registry : String) (body : List Step)
  | hold (teardown : Teardown (List Step))
  | releaseHandle (handle : String)
  | trackHandle (handle registry : String)
  | subject (name : String) (cloneOf : Option String)
  | dropSubject (name : String)
  | subscribe (subject : String) (observer : Observer (List Step)) (handle : String)
      (registry : Option String)
  /-- Subscribes to a source that tells everything it has at once. -/
  | replay (values : List Int) (sourceError : Option String) (observer : Observer (List Step))
      (teardown : Teardown (List Step)) (handle : String) (registry : Option String)
  | next (subject : String) (value : Int)
  | error (subject message : String)
  | complete (subject : String)
  | observer (observer : Observer (List Step))

instance : Inhabited Step := ⟨.shutdownGlobal⟩

abbrev Program := List Step

def Step.word : Step → String
  | .registry _ => "registry"
  | .dropRegistry _ => "drop_registry"
  | .acquire .. => "acquire"
  | .release .. => "release"
  | .releaseAll _ => "release_all"
  | .onDestroy _ => "on_destroy"
  | .shutdownGlobal => "shutdown_global"
  | .inspect _ => "show"
  | .scope .. => "scope"
  | .hold _ => "handle"
  | .releaseHandle _ => "release_handle"
  | .trackHandle .. => "track_handle"
  | .subject .. => "subject"
  | .dropSubject _ => "drop_subject"
  | .subscribe .. => "subscribe"
  | .replay .. => "replay"
  | .next .. => "next"
  | .error .. => "error"
  | .complete _ => "complete"
  | .observer _ => "observer"

/-- Why a step cannot be done. -/
inductive StepError
  | noRegistry (name : String)
  | noSubject (name : String)
  | noHandle (name : String)
  | release (e : ReleaseError)
deriving Repr, DecidableEq, Inhabited

/-- What a step answers. -/
inductive Answer
  | nothing
  | flag (value : Bool)
  /-- The identity under which the registry `r` stores a handle. -/
  | issued {r : Nat} (id : TrackedId)
  | held
  | released
  | report (r : ReleaseReport)
  | stored (count : Nat)
  | text (value : String)
  | list (answers : List Answer)
  | failure (e : StepError)
deriving Repr, Inhabited

/-- Who calls an observer. -/
inductive Caller
  /-- A delivery of a subject, by their numbers, to the observer with that id. -/
  | delivery (subject number id : Nat)
  /-- A subject that was closed before the observer with that id subscribed. -/
  | closed (subject id : Nat)
  | replay
deriving Repr, DecidableEq, Inhabited

/-- What happens during a run, in order. -/
inductive Event
  /-- The teardown of the handle with that number begins. -/
  | invoked (handle : Nat) (name : String)
  /-- A notification goes to an observer, which has a callback for it or not. -/
  | called (caller : Caller) (name : String) (note : Notification) (heard : Bool)
  /-- A step of a callback has its answer. -/
  | nested (word : String) (answer : Answer)
  /-- The subscription of an observer ends. -/
  | detached (subject id : Nat)
deriving Repr, Inhabited

end Subscriptions.Tracker
