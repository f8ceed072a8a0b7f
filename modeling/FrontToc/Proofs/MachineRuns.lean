import FrontToc.Files.Text
import FrontToc.Host.Machine

/-!
# Runs on a machine

A run that can fail gives a result or an error, and the machine after it. An error does not undo what was
done before it.
-/
namespace FrontToc

variable {α β : Type}

/-- The result of a run on a machine, and the machine after it. -/
def runOn (x : ExceptT Error OnMachine α) (machine : Machine) : Except Error α × Machine :=
  StateT.run (ExceptT.run x) machine

theorem runOn_mk_pure (result : Except Error α) (machine : Machine) :
    runOn (ExceptT.mk (pure result)) machine = (result, machine) :=
  rfl

theorem runOn_lift (x : OnMachine α) (machine : Machine) :
    runOn (liftM x) machine = (.ok (x machine).1, (x machine).2) :=
  rfl

theorem runOn_onPath (p : Path) (call : OnMachine (Except FileFault α)) (machine : Machine) :
    runOn (Host.onPath p call) machine =
      ((call machine).1.mapError (Error.file p), (call machine).2) :=
  rfl

theorem runOn_bind (x : ExceptT Error OnMachine α) (f : α → ExceptT Error OnMachine β)
    (machine : Machine) :
    runOn (x >>= f) machine =
      match runOn x machine with
      | (.ok a, after) => runOn (f a) after
      | (.error e, after) => (.error e, after) := by
  simp only [runOn, bind, ExceptT.bind, ExceptT.run, ExceptT.mk, StateT.run, StateT.bind]
  rcases x machine with ⟨_ | _, _⟩ <;> rfl

theorem runOn_tryCatch (x : ExceptT Error OnMachine α) (handler : Error → ExceptT Error OnMachine α)
    (machine : Machine) :
    runOn (tryCatch x handler) machine =
      match runOn x machine with
      | (.ok a, after) => (.ok a, after)
      | (.error e, after) => runOn (handler e) after := by
  simp only [runOn, tryCatch, tryCatchThe, MonadExceptOf.tryCatch, ExceptT.tryCatch, ExceptT.run,
    ExceptT.mk, StateT.run, bind, StateT.bind]
  rcases x machine with ⟨_ | _, _⟩ <;> rfl

section

variable (machine : Machine) (p : Path)

theorem runOn_change (act : FileTree → Except FileFault FileTree) :
    runOn (Host.onPath p (OnMachine.change act)) machine =
      match act machine.tree with
      | .ok tree => (.ok (), { machine with tree })
      | .error fault => (.error (.file p fault), machine) := by
  rw [runOn_onPath, OnMachine.change]
  cases act machine.tree <;> rfl

theorem runOn_write (bytes : ByteArray) :
    runOn (Host.onPath p (Host.write p bytes)) machine =
      match machine.tree.write p bytes with
      | .ok tree => (.ok (), { machine with tree })
      | .error fault => (.error (.file p fault), machine) :=
  runOn_change machine p fun tree => tree.write p bytes

theorem runOn_setPermissions (bits : Nat) :
    runOn (Host.onPath p (Host.setPermissions p bits)) machine =
      match machine.tree.setPermissions p bits with
      | .ok tree => (.ok (), { machine with tree })
      | .error fault => (.error (.file p fault), machine) :=
  runOn_change machine p fun tree => tree.setPermissions p bits

theorem runOn_rename (source : Path) :
    runOn (Host.onPath p (Host.rename source p)) machine =
      match machine.tree.rename source p with
      | .ok tree => (.ok (), { machine with tree })
      | .error fault => (.error (.file p fault), machine) :=
  runOn_change machine p fun tree => tree.rename source p

theorem runOn_createTemporary :
    runOn (Host.onPath p (Host.createTemporary p)) machine =
      match machine.tree.createTemporary p with
      | .ok (temporary, tree) => (.ok temporary, { machine with tree })
      | .error fault => (.error (.file p fault), machine) := by
  rw [runOn_onPath]
  show ((OnMachine.createTemporary p machine).1.mapError _, (OnMachine.createTemporary p machine).2) = _
  rw [OnMachine.createTemporary]
  rcases machine.tree.createTemporary p with _ | ⟨_, _⟩ <;> rfl

theorem runOn_permissions :
    runOn (liftM (Host.permissions? p : OnMachine (Option Nat))) machine =
      (.ok (machine.tree.permissions? p), machine) :=
  rfl

theorem runOn_remove :
    runOn (liftM (Host.remove p : OnMachine Unit)) machine =
      (.ok (), { machine with tree := machine.tree.remove p }) :=
  rfl

theorem runOn_read :
    runOn (Host.onPath p (Host.read p)) machine =
      ((machine.tree.read p).mapError (Error.file p), machine) :=
  rfl

end

/-- A run that leaves the files as they are. -/
def OnMachine.ReadsOnly (x : OnMachine α) : Prop :=
  ∀ machine, (x machine).2.tree = machine.tree

/-- A run that leaves the machine as it is. -/
def OnMachine.AsksOnly (x : OnMachine α) : Prop :=
  ∀ machine, x machine = ((x machine).1, machine)

namespace OnMachine.AsksOnly

protected theorem pure (a : α) : AsksOnly (pure a) :=
  fun _ => rfl

protected theorem ask (question : FileTree → α) : AsksOnly (OnMachine.ask question) :=
  fun _ => rfl

theorem bind_eq {x : OnMachine α} (asks : AsksOnly x) (f : α → OnMachine β) (machine : Machine) :
    (x >>= f) machine = f (x machine).1 machine := by
  show f (x machine).1 (x machine).2 = _
  rw [asks machine]

protected theorem bind {x : OnMachine α} {f : α → OnMachine β} (first : AsksOnly x)
    (second : ∀ a, AsksOnly (f a)) : AsksOnly (x >>= f) := by
  intro machine
  rw [first.bind_eq]
  exact second _ machine

theorem isDirectory (p : Path) : AsksOnly (Host.isDirectory p) :=
  (AsksOnly.ask _).bind fun _ => .pure _

theorem isFile (p : Path) : AsksOnly (Host.isFile p) :=
  (AsksOnly.ask _).bind fun _ => .pure _

theorem runOn_lift {x : OnMachine α} (asks : AsksOnly x) (machine : Machine) :
    runOn (liftM x) machine = (.ok (x machine).1, machine) := by
  rw [FrontToc.runOn_lift, asks machine]

end OnMachine.AsksOnly

namespace OnMachine.ReadsOnly

theorem of_asksOnly {x : OnMachine α} (asks : AsksOnly x) : ReadsOnly x := by
  intro machine
  rw [asks machine]

protected theorem say (output : Output) : ReadsOnly (Host.say output) :=
  fun _ => rfl

protected theorem bind {x : OnMachine α} {f : α → OnMachine β} (first : ReadsOnly x)
    (second : ∀ a, ReadsOnly (f a)) : ReadsOnly (x >>= f) :=
  fun machine => (second _ _).trans (first machine)

end OnMachine.ReadsOnly

/-- A run that can fail and leaves the files as they are, whatever it gives. -/
def KeepsTree (x : ExceptT Error OnMachine α) : Prop :=
  ∀ machine, (runOn x machine).2.tree = machine.tree

namespace KeepsTree

protected theorem pure (a : α) : KeepsTree (pure a) :=
  fun _ => rfl

protected theorem mk_pure (result : Except Error α) : KeepsTree (ExceptT.mk (pure result)) :=
  fun _ => rfl

protected theorem throw (e : Error) : KeepsTree (throw e : ExceptT Error OnMachine α) :=
  fun _ => rfl

theorem lift {x : OnMachine α} (reads : OnMachine.ReadsOnly x) : KeepsTree (liftM x) :=
  fun machine => reads machine

protected theorem bind {x : ExceptT Error OnMachine α} {f : α → ExceptT Error OnMachine β}
    (first : KeepsTree x) (second : ∀ a, KeepsTree (f a)) : KeepsTree (x >>= f) := by
  intro machine
  have kept := first machine
  rw [runOn_bind]
  rcases run : runOn x machine with ⟨_ | a, after⟩
  · rwa [run] at kept
  · rw [run] at kept
    exact (second a after).trans kept

theorem tryCatch {x : ExceptT Error OnMachine α} {handler : Error → ExceptT Error OnMachine α}
    (first : KeepsTree x) (second : ∀ e, KeepsTree (handler e)) :
    KeepsTree (MonadExcept.tryCatch x handler) := by
  intro machine
  have kept := first machine
  rw [runOn_tryCatch]
  rcases run : runOn x machine with ⟨e | _, after⟩
  · rw [run] at kept
    exact (second e after).trans kept
  · rwa [run] at kept

end KeepsTree

end FrontToc
