import Mathlib.Tactic.Common

/-!
# The atomic store

A store of `guard-system` keeps one value in a file. A write goes to a
temporary file, which is then renamed over the file, so that the file holds
either the value before or the value written, never a part of one. It may fail
at every stage. All the failures leave the file as it was except for the last
one: when the directory cannot be synchronised, the renaming has already taken
place, and the value written is visible although the write reports an error
(`WriteFault.visible`).

A file is `none` when it is missing. What a file holds is what was written,
i.e., encoding and decoding a value gives it back; a file that cannot be
decoded is one of the faults of reading.
-/

namespace VpsGuard

/-- Why a file is not written or read. -/
inductive StoreError
  | encode
  | io (operation : String)
  | missingParent
  deriving DecidableEq

/-- Where a write may fail. -/
inductive WriteFault
  | missingParent
  | createDirAll
  | encode
  | createTemp
  | writeTemp
  | syncTemp
  | rename
  | syncParent
  deriving DecidableEq

namespace WriteFault

/-- The new content is there although the write failed. -/
def visible : WriteFault → Bool
  | syncParent => true
  | _ => false

def error : WriteFault → StoreError
  | missingParent => .missingParent
  | createDirAll => .io "create_dir_all"
  | encode => .encode
  | createTemp => .io "create_temp"
  | writeTemp => .io "write_temp"
  | syncTemp => .io "sync_temp"
  | rename => .io "rename"
  | syncParent => .io "sync_parent"

end WriteFault

/-- Where a read may fail. -/
inductive ReadFault
  | read
  | decode
  deriving DecidableEq

def ReadFault.error : ReadFault → StoreError
  | read => .io "read"
  | decode => .encode

namespace AtomicStore

variable {T : Type*}

def writeResult : Option WriteFault → Except StoreError Unit
  | none => .ok ()
  | some fault => .error fault.error

/-- The file after a write. -/
def written (value : T) (file : Option T) : Option WriteFault → Option T
  | none => some value
  | some fault => if fault.visible then some value else file

def read (file : Option T) : Option ReadFault → Except StoreError T
  | some fault => .error fault.error
  | none =>
    match file with
    | some value => .ok value
    | none => .error (.io "read")

def readExisting (file : Option T) (fault : Option ReadFault) : Except StoreError (Option T) :=
  match file with
  | some value => (read (some value) fault).map some
  | none => .ok none

theorem written_eq_or (value : T) (file : Option T) (fault : Option WriteFault) :
    written value file fault = some value ∨
      written value file fault = file ∧ fault ≠ none := by
  cases fault with
  | none => exact .inl rfl
  | some fault => cases hv : fault.visible <;> simp [written, hv]

@[simp] theorem readExisting_none {file : Option T} : readExisting file none = .ok file := by
  cases file <;> rfl

theorem eq_of_readExisting {file value : Option T} {fault : Option ReadFault}
    (h : readExisting file fault = .ok value) : value = file := by
  cases file with
  | none => cases h; rfl
  | some v =>
    cases fault with
    | none => cases h; rfl
    | some fault => cases h

end AtomicStore

end VpsGuard
