import VpsGuard.Provider.Controller
import VpsGuard.Effect.Machine

/-!
# The world of the provider controller

What the controller runs in: the provider, which answers anything, the store,
whose writes fail in any way, and the process, whose commands share one
controller by a lock. The world (`ProviderWorld`) also notes what the provider
was asked for: the snapshot it gave last, whether it may have been changed and
not been completely restored since, and the snapshot before the first of these
changes.
-/

namespace VpsGuard

open Effect

/-- The provider, the store and the process. -/
structure ProviderWorld where
  /-- The controller of the running process, if there is one. -/
  controller : Option ProviderController
  /-- The controller is in use. -/
  locked : Bool
  store : Option ProviderTransaction
  /-- The snapshot that the provider gave last. -/
  taken : Option ProviderSnapshot
  /-- The provider may have been changed, and was not completely restored since. -/
  changed : Bool
  /-- The snapshot taken before the first of these changes. -/
  original : Option ProviderSnapshot

/-- What the surroundings choose when the controller asks. -/
inductive ProviderChoice
  | backend (answer : (o : BackendOp) → o.Ans)
  | connect (answer : Except ProviderControllerError Unit)
  | preflight (answer : Except ProviderError Unit)
  | time (now : ℕ)
  | read (fault : Option ReadFault)
  | write (fault : Option WriteFault)

namespace ProviderWorld

def change (s : ProviderWorld) : ProviderWorld :=
  { s with changed := true, original := if s.changed then s.original else s.taken }

/-- A call of the provider, noted. A change is noted whatever the answer, a
    restoration if it succeeded. -/
def noteCall (s : ProviderWorld) : (o : BackendOp) → o.Ans → ProviderWorld
  | .snapshot _, .ok snapshot => { s with taken := some snapshot }
  | .requestProxyEnable _, _ => s.change
  | .requestOriginLock, _ => s.change
  | .restore snapshot, .ok () =>
    if s.original = some snapshot then { s with changed := false } else s
  | .snapshot _, .error _ | .verifyProxyEnabled _, _ | .verifyOriginLock, _
  | .restore _, .error _ => s

/-- What was asked of the provider goes on record. -/
def noteCalls (s : ProviderWorld) (calls : List BackendCall) : ProviderWorld :=
  calls.foldl (fun s call => s.noteCall call.1 call.2) s

/-- The world answers the controller. -/
def exec : (o : ProviderOp) → ProviderChoice → ProviderWorld → Option (o.Ans × ProviderWorld)
  | .backend o, .backend answer, s => some (answer o, s.noteCall o (answer o))
  | .connect, .connect answer, s => some (answer, s)
  | .preflight, .preflight answer, s => some (answer, s)
  | .currentUnixSeconds, .time now, s => some (now, s)
  | .readStore, .read fault, s => some (AtomicStore.readExisting s.store fault, s)
  | .writeStore txn, .write fault, s =>
    some (AtomicStore.writeResult fault, { s with store := AtomicStore.written txn s.store fault })
  | _, _, _ => none

end ProviderWorld

/-! ## The process -/

/-- The commands to the controller. -/
inductive ProviderCommand
  | enable (operationId : String)
  | restore

/-- What a process that serves commands asks for. -/
inductive HostOp
  | provider (o : ProviderOp)
  /-- The controller, for a command. -/
  | lock (command : ProviderCommand)
  /-- The controller after a start or a command. -/
  | unlock (controller : Option ProviderController)

/-- The answers to the process. -/
abbrev HostOp.Ans : HostOp → Type
  | provider o => o.Ans
  | lock _ => Option ProviderController
  | unlock _ => Unit

/-- The surroundings of the process. -/
abbrev Host : Sig := ⟨HostOp, HostOp.Ans⟩

/-- The surroundings of the controller among those of the process. -/
def Host.ofProvider : Sig.Hom Provider Host where
  op := .provider
  ans _ a := a

namespace ProviderWorld

/-- The world answers the process. -/
def hostExec : (o : HostOp) → Option ProviderChoice → ProviderWorld → Option (o.Ans × ProviderWorld)
  | .provider o, some x, s => s.exec o x
  | .lock _, none, s => if s.locked then none else some (s.controller, { s with locked := true })
  | .unlock controller, none, s => some ((), { s with controller, locked := false })
  | _, _, _ => none

end ProviderWorld

/-- A command, run by the controller. -/
def ProviderCommand.run (ctl : ProviderController) : ProviderCommand →
    Prog Provider ProviderController.Result
  | enable operationId => ctl.enable operationId
  | restore => ctl.restore

namespace ProviderWorld

variable {s t : ProviderWorld} {x : ProviderChoice}

/-! ## What the world answers -/

theorem of_exec_backend {o : BackendOp} {a : o.Ans}
    (h : exec (.backend o) x s = some (a, t)) : t = s.noteCall o a := by
  cases x <;> simp [exec] at h
  obtain ⟨rfl, rfl⟩ := h
  rfl

/-- A step of a transaction asks at most one thing of the provider, which is then on record. -/
theorem safe_step {α β : Type} {allow : ProviderOp → ProviderChoice → ProviderWorld → Prop}
    {inv : ProviderWorld → Prop} {A : BackendOp → Prop} {R : List BackendCall → α → Prop}
    {q : Prog Backend α} {g : α → Prog Provider β} {Q : β → ProviderWorld → Prop}
    (hq : q.Single A R) (hg : ∀ calls a, R calls a → inv (s.noteCalls calls) ∧
      (g a).Safe ⟨⟨exec⟩, allow, inv⟩ .alone Q (s.noteCalls calls)) :
    (q.lift Provider.ofBackend >>= g).Safe ⟨⟨exec⟩, allow, inv⟩ .alone Q s := by
  refine .single_bind hq (fun a ha => (hg [] a ha).2) ?_
  rintro o _ x y u a rfl - - - hx ha
  obtain rfl := of_exec_backend hx
  exact ⟨trivial, hg _ a ha⟩

theorem of_exec_writeStore {txn : ProviderTransaction} {a : Except StoreError Unit}
    (h : exec (.writeStore txn) x s = some (a, t)) : ∃ fault, a = AtomicStore.writeResult fault ∧
      t = { s with store := AtomicStore.written txn s.store fault } := by
  cases x <;> simp [exec] at h
  obtain ⟨rfl, rfl⟩ := h
  exact ⟨_, rfl, rfl⟩

theorem of_exec_currentUnixSeconds {a : ℕ}
    (h : exec .currentUnixSeconds x s = some (a, t)) : t = s := by
  cases x <;> simp [exec] at h
  exact h.2.symm

theorem of_exec_connect {a : Except ProviderControllerError Unit}
    (h : exec .connect x s = some (a, t)) : t = s := by
  cases x <;> simp [exec] at h
  exact h.2.symm

theorem of_exec_preflight {a : Except ProviderError Unit}
    (h : exec .preflight x s = some (a, t)) : t = s := by
  cases x <;> simp [exec] at h
  exact h.2.symm

theorem of_exec_readStore {a : Except StoreError (Option ProviderTransaction)}
    (h : exec .readStore x s = some (a, t)) : t = s ∧ ∀ r, a = .ok r → r = s.store := by
  cases x with
  | read fault =>
    cases h
    exact ⟨rfl, fun r hr => AtomicStore.eq_of_readExisting hr⟩
  | _ => cases h

theorem exec_frame {o : ProviderOp} {a : o.Ans} (h : exec o x s = some (a, t)) :
    t.controller = s.controller ∧ t.locked = s.locked := by
  cases o with
  | backend o =>
    rw [of_exec_backend h]
    unfold noteCall
    split <;> first | exact ⟨rfl, rfl⟩ | (split <;> exact ⟨rfl, rfl⟩)
  | connect => rw [of_exec_connect h]; exact ⟨rfl, rfl⟩
  | preflight => rw [of_exec_preflight h]; exact ⟨rfl, rfl⟩
  | currentUnixSeconds => rw [of_exec_currentUnixSeconds h]; exact ⟨rfl, rfl⟩
  | readStore => rw [(of_exec_readStore h).1]; exact ⟨rfl, rfl⟩
  | writeStore txn =>
    obtain ⟨fault, -, rfl⟩ := of_exec_writeStore h
    exact ⟨rfl, rfl⟩

variable {y : Option ProviderChoice}

theorem of_hostExec_provider {o : ProviderOp} {a : o.Ans}
    (h : hostExec (.provider o) y s = some (a, t)) : ∃ x, y = some x ∧ exec o x s = some (a, t) := by
  cases y with
  | none => simp [hostExec] at h
  | some x => exact ⟨x, rfl, h⟩

theorem of_hostExec_lock {command : ProviderCommand}
    {a : Option ProviderController} (h : hostExec (.lock command) y s = some (a, t)) :
    s.locked = false ∧ a = s.controller ∧ t = { s with locked := true } := by
  cases y with
  | some x => simp [hostExec] at h
  | none =>
    simp only [hostExec, Option.ite_none_left_eq_some, Bool.not_eq_true, Option.some.injEq,
      Prod.mk.injEq] at h
    exact ⟨h.1, h.2.1.symm, h.2.2.symm⟩

theorem of_hostExec_unlock {controller : Option ProviderController}
    {a : Unit} (h : hostExec (.unlock controller) y s = some (a, t)) :
    t = { s with controller, locked := false } := by
  cases y with
  | some x => simp [hostExec] at h
  | none => cases h; rfl

end ProviderWorld

end VpsGuard
