import DebugLink.LinkError
import DebugLink.Value.Basic

/-! Thread groups: one for each process under the debugger, with its process number once it has
started, its threads, and the libraries it has loaded. A group must be added before anything is
known of it. -/

namespace DebugLink

structure ThreadGroup where
  id : String
  pid : Option UInt32 := none
  threads : Dict String Unit := ∅
  libraries : Dict String Fields := ∅
deriving DecidableEq, Inhabited

structure ThreadGroupTable where
  byId : Dict String ThreadGroup := ∅
deriving DecidableEq, Inhabited

namespace ThreadGroupTable

def get? (t : ThreadGroupTable) (id : String) : Option ThreadGroup := t.byId.find? id

def size (t : ThreadGroupTable) : Nat := t.byId.size

def listing (t : ThreadGroupTable) : List ThreadGroup := t.byId.values

/-- Adds a group; one that is there already stays as it is. -/
def add (t : ThreadGroupTable) (id : String) : ThreadGroup × ThreadGroupTable :=
  match t.get? id with
  | some g => (g, t)
  | none => (⟨id, none, ∅, ∅⟩, ⟨t.byId.insert id ⟨id, none, ∅, ∅⟩⟩)

/-- Changes a group that has been added. -/
def update (t : ThreadGroupTable) (id : String) (f : ThreadGroup → ThreadGroup) :
    Except LinkError (ThreadGroup × ThreadGroupTable) :=
  match t.get? id with
  | none => .error (.unknownThreadGroup id)
  | some g => .ok (f g, ⟨t.byId.insert id (f g)⟩)

/-- Notes the process number of a group. The number is looked at before the group. -/
def start (t : ThreadGroupTable) (id pid : String) :
    Except LinkError (ThreadGroup × ThreadGroupTable) :=
  match Decimal.readUInt32 pid with
  | .error _ => .error (.invalidField "pid" pid)
  | .ok n => t.update id fun g => { g with pid := some n }

def addThread (t : ThreadGroupTable) (id thread : String) :
    Except LinkError (ThreadGroup × ThreadGroupTable) :=
  t.update id fun g => { g with threads := g.threads.insert thread () }

/-- Notes what is known of a library, in the place of what was known before. -/
def loadLibrary (t : ThreadGroupTable) (id library : String) (info : Fields) :
    Except LinkError (ThreadGroup × ThreadGroupTable) :=
  t.update id fun g => { g with libraries := g.libraries.insert library info }

end ThreadGroupTable

end DebugLink
