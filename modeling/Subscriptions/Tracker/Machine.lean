import Subscriptions.Tracker.World

namespace Subscriptions.Tracker

/-- Where a new handle goes: to a registry that was found under a name, or nowhere. -/
structure Owner where
  number : Nat
  name : String
deriving Repr, DecidableEq, Inhabited

/-- Why a registry is drained, which decides what comes after. -/
inductive DrainPurpose
  | report
  /-- The scope around the registry ends with these answers. -/
  | scopeEnd (answers : List Answer)
  /-- The registry is gone, and the step that let go of it has this answer. -/
  | dropped (answer : Answer)

/-- What is left to do when something inside it ends. -/
inductive Frame
  /-- The rest of a callback, while one of its steps runs. -/
  | program (word : String) (rest : Program)
  /-- A handle whose teardown program runs. -/
  | teardown (h : Handle) (failure : Option ReleaseError)
  /-- A delivery: the observers out with it that had their turn, and those that wait. -/
  | delivery (subject number : Nat) (note : Notification)
      (served waiting : List (Nat × Observer Program))
  /-- A handle to be stored once the observer has heard that its subject is closed. -/
  | subscribing (owner : Option Owner) (name : String) (h : Handle)
  /-- The notifications that a replayed source has left. -/
  | replaying (owner : Option Owner) (name : String) (observer : Observer Program)
      (teardown : Teardown Program) (rest : List Notification)
  /-- A handle taken from its place in a registry. -/
  | releasing (registry : Nat)
  /-- A handle taken from those held. -/
  | holding (name : String)
  /-- The handles that a drain has left. -/
  | draining (registry : Nat) (waiting : List Handle) (report : ReleaseReport)
      (purpose : DrainPurpose)
  /-- The rest of a scope, while one of its steps runs. -/
  | scope (registry : Nat) (rest : Program) (answers : List Answer)

def Frame.keeps (r : Nat) : Frame → Bool
  | .subscribing owner .. | .replaying owner .. => owner.any (·.number == r)
  | .releasing n | .draining n .. | .scope n .. => n == r
  | .program .. | .teardown .. | .delivery .. | .holding .. => false

/-- What happens next. -/
inductive Control
  | run (s : Step)
  | answer (a : Answer)
  /-- A callback has come to its end. -/
  | finished
  /-- A handle is to be released. -/
  | invoke (h : Handle)
  /-- A handle has been released, or has failed to be. -/
  | released (h : Handle) (error : Option ReleaseError)
  /-- A step lets go of a registry, and has its answer. -/
  | leave (registry : Nat) (a : Answer)

/-- A world in which something runs. -/
structure Machine where
  world : World
  control : Control
  stack : List Frame

namespace Machine

/-- Runs the steps of a callback one after another. -/
def startProgram (w : World) (p : Program) (stack : List Frame) : Machine :=
  match p with
  | [] => ⟨w, .finished, stack⟩
  | s :: rest => ⟨w, .run s, .program s.word rest :: stack⟩

def answered (w : World) (a : Answer) (stack : List Frame) : Machine := ⟨w, .answer a, stack⟩

def failed (w : World) (e : StepError) (stack : List Frame) : Machine :=
  ⟨w, .answer (.failure e), stack⟩

def call (w : World) (caller : Caller) (o : Observer Program) (note : Notification)
    (stack : List Frame) : Machine :=
  let callback := o.callback? note
  startProgram (w.happen (.called caller o.name note callback.isSome)) (callback.getD []) stack

def drain (w : World) (r : Nat) (purpose : DrainPurpose) (stack : List Frame) : Machine :=
  let (handles, registry) := (w.registry r).drain
  let w := w.setRegistry r registry
  match handles with
  | [] => ⟨w, .finished, .draining r [] ⟨0, 0⟩ purpose :: stack⟩
  | h :: rest => ⟨w, .invoke h, .draining r rest ⟨0, 0⟩ purpose :: stack⟩

theorem drain_of_nil {w : World} {r : Nat} (h : (w.registry r).handles = [])
    (purpose : DrainPurpose) (stack : List Frame) :
    drain w r purpose stack = ⟨w.setRegistry r (w.registry r).drain.2, .finished,
      .draining r [] ⟨0, 0⟩ purpose :: stack⟩ := by
  simp [drain, Registry.drain, h]

theorem drain_of_cons {w : World} {r : Nat} {h : Handle} {rest : List Handle}
    (hr : (w.registry r).handles = h :: rest) (purpose : DrainPurpose) (stack : List Frame) :
    drain w r purpose stack = ⟨w.setRegistry r (w.registry r).drain.2, .invoke h,
      .draining r rest ⟨0, 0⟩ purpose :: stack⟩ := by
  simp [drain, Registry.drain, hr]

def drained (w : World) (r : Nat) (report : ReleaseReport) (purpose : DrainPurpose)
    (stack : List Frame) : Machine :=
  match purpose with
  | .report => ⟨w, .leave r (.report report), stack⟩
  | .scopeEnd answers => ⟨w, .leave r (.list answers), stack⟩
  | .dropped a => ⟨w, .answer a, stack⟩

/-- Begins a delivery; a closed subject delivers nothing. -/
def deliver (w : World) (name : String) (note : Notification) (stack : List Frame) : Machine :=
  match w.subjectNames.lookup name with
  | none => failed w (.noSubject name) stack
  | some s =>
    match (w.subject s).begin? note.isTerminal with
    | none => answered w .nothing stack
    | some (out, subject) =>
      let w := { w.setSubject s subject with deliveryCount := w.deliveryCount + 1 }
      ⟨w, .finished, .delivery s w.deliveryCount note [] out :: stack⟩

def store (w : World) (owner : Option Owner) (name : String) (h : Handle)
    (stack : List Frame) : Machine :=
  match owner with
  | none => answered (w.hold name h) .held stack
  | some o =>
    let (a, w) := w.track o.number o.name name h
    ⟨w, .leave o.number a, stack⟩

def owner? (w : World) : Option String → Except StepError (Option Owner)
  | none => .ok none
  | some name =>
    match w.registryNumber? name with
    | none => .error (.noRegistry name)
    | some r => .ok (some ⟨r, name⟩)

def withRegistry (w : World) (name : String) (stack : List Frame) (f : Nat → Machine) : Machine :=
  match w.registryNumber? name with
  | none => failed w (.noRegistry name) stack
  | some r => f r

/-- A new registry under a name; one that had the name is let go. -/
def newRegistry (w : World) (name : String) (stack : List Frame) : Machine :=
  let old := w.registryNames.lookup name
  let w := { w with
    registries := w.registries ++ [.empty],
    registryNames := bindName w.registryNames name w.registries.length }
  match old with
  | none => answered w (.flag false) stack
  | some r => ⟨w, .leave r (.flag true), stack⟩

def dropRegistry (w : World) (name : String) (stack : List Frame) : Machine :=
  match w.registryNames.lookup name with
  | none => answered w (.flag false) stack
  | some r => ⟨{ w with registryNames := unbindName w.registryNames name }, .leave r (.flag true), stack⟩

def release (w : World) (handle : String) (registry : Option String) (stack : List Frame) :
    Machine :=
  match w.acquisitions.lookup handle with
  | none => failed w (.noHandle handle) stack
  | some acquisition =>
    withRegistry w (registry.getD acquisition.registry) stack fun r =>
      match (w.registry r).handle? acquisition.id with
      | none => answered w (.flag false) stack
      | some h => ⟨w.setRegistry r ((w.registry r).clear acquisition.id), .invoke h,
          .releasing r :: stack⟩

def releaseHandle (w : World) (name : String) (stack : List Frame) : Machine :=
  match w.held.lookup name with
  | none => failed w (.noHandle name) stack
  | some h => ⟨{ w with held := unbindName w.held name }, .invoke h, .holding name :: stack⟩

def trackHandle (w : World) (name registry : String) (stack : List Frame) : Machine :=
  withRegistry w registry stack fun r =>
    match w.held.lookup name with
    | none => failed w (.noHandle name) stack
    | some h => store { w with held := unbindName w.held name } (some ⟨r, registry⟩) name h stack

def newSubject (w : World) (name : String) (cloneOf : Option String) (stack : List Frame) :
    Machine :=
  match cloneOf with
  | none => answered { w with
      subjects := w.subjects ++ [.empty],
      subjectNames := bindName w.subjectNames name w.subjects.length } .nothing stack
  | some known =>
    match w.subjectNames.lookup known with
    | none => failed w (.noSubject known) stack
    | some s => answered { w with subjectNames := bindName w.subjectNames name s } .nothing stack

def dropSubject (w : World) (name : String) (stack : List Frame) : Machine :=
  answered { w with subjectNames := unbindName w.subjectNames name }
    (.flag (w.subjectNames.lookup name).isSome) stack

/-- Subscribes an observer. On a closed subject it is completed at once, before its handle is
stored. -/
def subscribe (w : World) (subject : String) (o : Observer Program) (name : String)
    (registry : Option String) (stack : List Frame) : Machine :=
  match w.subjectNames.lookup subject with
  | none => failed w (.noSubject subject) stack
  | some s =>
    match owner? w registry with
    | .error e => failed w e stack
    | .ok owner =>
      let (id, value) := (w.subject s).subscribe o
      let (h, w) := (w.setSubject s value).newHandle (.subscription s id)
      if value.closed then call w (.closed s id) o .complete (.subscribing owner name h :: stack)
      else store w owner name h stack

def replayNotes (values : List Int) (sourceError : Option String) : List Notification :=
  values.map .next ++ [(sourceError.map .error).getD .complete]

/-- The next notification of a replayed source, or its handle when there is none left. -/
def replayOn (w : World) (owner : Option Owner) (name : String) (o : Observer Program)
    (t : Teardown Program) (notes : List Notification) (stack : List Frame) : Machine :=
  match notes with
  | [] =>
    let (h, w) := w.newHandle (.teardown t)
    store w owner name h stack
  | note :: rest => call w .replay o note (.replaying owner name o t rest :: stack)

def acquire (w : World) (registry : String) (t : Teardown Program) (stack : List Frame) : Machine :=
  withRegistry w registry stack fun r =>
    let (h, w) := w.newHandle (.teardown t)
    store w (some ⟨r, registry⟩) t.name h stack

/-- Runs the steps of a scope one after another, and then drains its registry. -/
def scopeOn (w : World) (r : Nat) (p : Program) (answers : List Answer) (stack : List Frame) :
    Machine :=
  match p with
  | [] => drain w r (.scopeEnd answers) stack
  | s :: rest => ⟨w, .run s, .scope r rest answers :: stack⟩

def runStep (w : World) (s : Step) (stack : List Frame) : Machine :=
  match s with
  | .registry name => newRegistry w name stack
  | .dropRegistry name => dropRegistry w name stack
  | .acquire registry t => acquire w registry t stack
  | .release handle registry => release w handle registry stack
  | .releaseAll name | .onDestroy name =>
    withRegistry w name stack fun r => drain w r .report stack
  | .shutdownGlobal => drain w World.globalRegistry .report stack
  | .inspect name => withRegistry w name stack fun r =>
      answered w (.stored (w.registry r).length) stack
  | .scope name body => withRegistry w name stack fun r => scopeOn w r body [] stack
  | .hold t =>
    let (h, w) := w.newHandle (.teardown t)
    store w none t.name h stack
  | .releaseHandle name => releaseHandle w name stack
  | .trackHandle name registry => trackHandle w name registry stack
  | .subject name cloneOf => newSubject w name cloneOf stack
  | .dropSubject name => dropSubject w name stack
  | .subscribe subject o name registry => subscribe w subject o name registry stack
  | .replay values sourceError o t name registry =>
    match owner? w registry with
    | .error e => failed w e stack
    | .ok owner => replayOn w owner name o t (replayNotes values sourceError) stack
  | .next subject value => deliver w subject (.next value) stack
  | .error subject message => deliver w subject (.error message) stack
  | .complete subject => deliver w subject .complete stack
  | .observer o => answered w (.text o.text) stack

/-- Releases a handle; one that is spent fails. A subscription detaches its observer. -/
def invoke (w : World) (h : Handle) (stack : List Frame) : Machine :=
  if h.spent then ⟨w, .released h (some .alreadyReleased), stack⟩
  else
    match h.resource with
    | .teardown t =>
      startProgram (w.happen (.invoked h.number t.name)) t.program
        (.teardown { h with spent := true } t.failure :: stack)
    | .subscription s id =>
      ⟨(w.setSubject s ((w.subject s).detach id)).happen (.detached s id),
        .released { h with spent := true } none, stack⟩

def deliverOn (w : World) (s number : Nat) (note : Notification)
    (served waiting : List (Nat × Observer Program)) (stack : List Frame) : Machine :=
  match waiting with
  | [] => answered (w.setSubject s ((w.subject s).finish note.isTerminal served)) .nothing stack
  | (id, o) :: rest =>
    let frame := Frame.delivery s number note (served ++ [(id, o)]) rest
    if (w.subject s).isDetached id then ⟨w, .finished, frame :: stack⟩
    else call w (.delivery s number id) o note (frame :: stack)

def afterCallback (w : World) (f : Frame) (stack : List Frame) : Machine :=
  match f with
  | .teardown h failure => ⟨w, .released h failure, stack⟩
  | .delivery s number note served waiting => deliverOn w s number note served waiting stack
  | .subscribing owner name h => store w owner name h stack
  | .replaying owner name o t rest => replayOn w owner name o t rest stack
  | .draining r _ report purpose => drained w r report purpose stack
  | .program .. | .releasing _ | .holding _ | .scope .. => ⟨w, .finished, stack⟩

/-- What a release answers for one handle of a registry. -/
def releaseAnswer : Option ReleaseError → Answer
  | none => .flag true
  | some e => .failure (.release e)

/-- What a release answers for a handle that is held. -/
def holdAnswer : Option ReleaseError → Answer
  | none => .released
  | some e => .failure (.release e)

def afterRelease (w : World) (h : Handle) (error : Option ReleaseError) (f : Frame)
    (stack : List Frame) : Machine :=
  match f with
  | .releasing r => ⟨w, .leave r (releaseAnswer error), stack⟩
  | .holding name => answered (w.hold name h) (holdAnswer error) stack
  | .draining r (next :: rest) report purpose =>
    ⟨w, .invoke next, .draining r rest (report.count error) purpose :: stack⟩
  | .draining r [] report purpose => drained w r (report.count error) purpose stack
  | .program .. | .teardown .. | .delivery .. | .subscribing .. | .replaying .. | .scope .. =>
    ⟨w, .released h error, stack⟩

def afterAnswer (w : World) (a : Answer) (f : Frame) (stack : List Frame) : Machine :=
  match f with
  | .program word rest => startProgram (w.happen (.nested word a)) rest stack
  | .scope r rest answers => scopeOn w r rest (answers ++ [a]) stack
  | .teardown .. | .delivery .. | .subscribing .. | .replaying .. | .releasing _ | .holding _
  | .draining .. => ⟨w, .answer a, stack⟩

/-- A registry that no name and no frame keeps is dropped, which drains it. -/
def leave (w : World) (r : Nat) (a : Answer) (stack : List Frame) : Machine :=
  if w.isNamed r || stack.any (·.keeps r) then answered w a stack
  else drain w r (.dropped a) stack

/-- One move, or nothing when the run is over. -/
def move (m : Machine) : Option Machine :=
  match m.control, m.stack with
  | .run s, stack => some (runStep m.world s stack)
  | .invoke h, stack => some (invoke m.world h stack)
  | .leave r a, stack => some (leave m.world r a stack)
  | .answer a, f :: stack => some (afterAnswer m.world a f stack)
  | .finished, f :: stack => some (afterCallback m.world f stack)
  | .released h e, f :: stack => some (afterRelease m.world h e f stack)
  | .answer _, [] | .finished, [] | .released .., [] => none

/-- Moves until the run is over, a number of times at most. -/
def run : Nat → Machine → Machine
  | 0, m => m
  | fuel + 1, m =>
    match m.move with
    | none => m
    | some next => run fuel next

/-- More moves than any run of a reasonable program takes. -/
def patience : Nat := 1000000000

end Machine

/-- What a step answers and what happens meanwhile, in order. -/
structure Outcome where
  answer : Answer
  events : List Event
  world : World

namespace World

def perform (w : World) (s : Step) : Outcome :=
  let last := Machine.run Machine.patience ⟨w, .run s, []⟩
  let events := last.world.events.take (last.world.events.length - w.events.length)
  let answer := match last.control with
    | .answer a => a
    | _ => .nothing
  ⟨answer, events.reverse, last.world⟩

end World

end Subscriptions.Tracker
