import MessageArchive.Error

set_option autoImplicit false

/-! # Audit trails

Everything done for a message is recorded. An `Event` says what happened; an `Entry` is the event
as it is written down, with the message it belongs to and a status. A `Log` is handed in to have the
entries recorded in it, and ends up with those of the whole trail (`entries_foldl_record`). `Traced`
is a piece of work that leaves events behind and ends with a result or a failure: work that follows a
failure is not done and leaves nothing.
-/

namespace MessageArchive.Audit

/-- How an entry is to be taken. -/
inductive Status where
  | success
  | warning
  | error
  deriving DecidableEq, Repr

def Status.text : Status → String
  | .success => "SUCCESS"
  | .warning => "WARNING"
  | .error => "ERROR"

/-- An entry of an audit trail. -/
structure Entry where
  messageId : String
  status : Status
  text : String
  deriving DecidableEq, Repr

/-- The entries recorded so far, the oldest first. -/
structure Log where
  entries : List Entry := []
  deriving DecidableEq, Repr

/-- Adds an entry at the end. -/
def Log.record (log : Log) (entry : Entry) : Log := ⟨log.entries ++ [entry]⟩

/-- What can happen while a message is archived. -/
inductive Event where
  /-- Work on the message begins. -/
  | started
  /-- A reference to a property was read. -/
  | propertyFound (space name : String)
  /-- The referenced property has this value. -/
  | propertyValue (value : String)
  /-- The referenced property is not set, and it has to be. -/
  | propertyUnset (name : String)
  /-- A date placeholder with this pattern was read. -/
  | dateFound (pattern : String)
  /-- The payload is in the file at this path. -/
  | written (path : Path)
  /-- The message is not archived. -/
  | failed (cause : ArchiveError)
  deriving DecidableEq, Repr

/-- The version that the archiver announces itself with. -/
def version : String := "0.1.0"

namespace Event

def status : Event → Status
  | .propertyUnset _ => .error
  | .failed _ => .error
  | _ => .success

/-- The event in words. -/
def text : Event → String
  | .started => "msgarc archiver " ++ version
  | .propertyFound space name => "found dynamic property " ++ name ++ ", namespace " ++ space
  | .propertyValue value => "dynamic property has value [" ++ value ++ "]"
  | .propertyUnset name => "dynamic property " ++ name ++ " is not set"
  | .dateFound pattern => "found date format " ++ pattern
  | .written path => "payload written to " ++ path.text
  | .failed cause => "archiving failed: " ++ cause.message

/-- The event as an entry for a message. -/
def entry (messageId : String) (e : Event) : Entry := ⟨messageId, e.status, e.text⟩

end Event

/-- The entries of a trail of events for a message. -/
def entries (messageId : String) (trail : List Event) : List Entry :=
  trail.map (Event.entry messageId)

/-- A log in which the events of a trail are recorded, one after the other, has their entries behind
those that it had. -/
theorem entries_foldl_record (log : Log) (messageId : String) (trail : List Event) :
    (trail.foldl (fun log e => log.record (e.entry messageId)) log).entries =
      log.entries ++ entries messageId trail := by
  induction trail generalizing log with
  | nil => exact (List.append_nil _).symm
  | cons e trail ih =>
      rw [List.foldl_cons, ih]
      exact (List.append_cons log.entries (e.entry messageId) (entries messageId trail)).symm

/-! ## Work that is recorded -/

/-- The events that a piece of work leaves behind, and how it ends. -/
structure Traced (α : Type) where
  trail : List Event
  result : Except ArchiveError α

namespace Traced

variable {α β : Type}

/-- Ends at once with a value. -/
def value (a : α) : Traced α := ⟨[], .ok a⟩

/-- Ends at once with a failure. -/
def fail (e : ArchiveError) : Traced α := ⟨[], .error e⟩

/-- Records an event. -/
def record (e : Event) : Traced Unit := ⟨[e], .ok ()⟩

/-- Goes on with the value of the first piece of work, if it has one. -/
def andThen (x : Traced α) (f : α → Traced β) : Traced β :=
  match x.result with
  | .error e => ⟨x.trail, .error e⟩
  | .ok a => ⟨x.trail ++ (f a).trail, (f a).result⟩

instance : Monad Traced where
  pure := value
  bind := andThen

@[simp] theorem trail_pure (a : α) : (pure a : Traced α).trail = [] := rfl

@[simp] theorem result_pure (a : α) : (pure a : Traced α).result = .ok a := rfl

@[simp] theorem result_fail (e : ArchiveError) : (fail e : Traced α).result = .error e := rfl

@[simp] theorem result_record (e : Event) : (record e).result = .ok () := rfl

theorem bind_of_ok {x : Traced α} {a : α} (f : α → Traced β) (h : x.result = .ok a) :
    (x >>= f) = ⟨x.trail ++ (f a).trail, (f a).result⟩ := by
  show andThen x f = _
  simp [andThen, h]

theorem bind_of_error {x : Traced α} {e : ArchiveError} (f : α → Traced β)
    (h : x.result = .error e) : (x >>= f) = ⟨x.trail, .error e⟩ := by
  show andThen x f = _
  simp [andThen, h]

end Traced

end MessageArchive.Audit
