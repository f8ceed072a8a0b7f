import FrontToc.Host.Machine

/-!
Machines on which a run may go another way: one that does not carry out every call, since its storage is
full or the rights for a change are missing, and one that lists what lies below a directory in an order
of its own.
-/
namespace FrontToc

/-- The calls that a machine refuses, with the fault that it gives for each. A write that is refused may
leave other bytes than the ones to be written. -/
structure Refusals where
  temporary : Option FileFault := none
  write : Option (FileFault × ByteArray) := none
  permissions : Option FileFault := none
  rename : Option FileFault := none

namespace OnMachine

def orRefused {α : Type} (call : OnMachine (Except FileFault α)) :
    Option FileFault → OnMachine (Except FileFault α)
  | none => call
  | some fault => pure (.error fault)

/-- Writes a file. A write that is refused may have begun. -/
def writeOrRefused (path : Path) (bytes : ByteArray) :
    Option (FileFault × ByteArray) → OnMachine (Except FileFault Unit)
  | none => Host.write path bytes
  | some (fault, part) => do
    discard (Host.write path part : OnMachine (Except FileFault Unit))
    return .error fault

/-- The calls on a machine that refuses some. A file is removed and looked at in any case. -/
@[reducible]
def refusing (refusals : Refusals) : Host OnMachine where
  kind? := Host.kind?
  below := Host.below
  read := Host.read
  permissions? := Host.permissions?
  createTemporary path := orRefused (Host.createTemporary path) refusals.temporary
  write path bytes := writeOrRefused path bytes refusals.write
  setPermissions path bits := orRefused (Host.setPermissions path bits) refusals.permissions
  rename source destination := orRefused (Host.rename source destination) refusals.rename
  remove := Host.remove
  createDirectory := Host.createDirectory
  say := Host.say

/-- The calls on a machine that lists what lies below a directory in another order. -/
@[reducible]
def listing (order : List (List (List Char)) → List (List (List Char))) : Host OnMachine where
  kind? := Host.kind?
  below path := order <$> Host.below path
  read := Host.read
  permissions? := Host.permissions?
  createTemporary := Host.createTemporary
  write := Host.write
  setPermissions := Host.setPermissions
  rename := Host.rename
  remove := Host.remove
  createDirectory := Host.createDirectory
  say := Host.say

end OnMachine

end FrontToc
