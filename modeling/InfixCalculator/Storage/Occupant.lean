import InfixCalculator.Storage.Path
import InfixCalculator.Text.Quoted

/-!
What stands under the names of files, and whether something can be saved there.
-/
namespace InfixCalculator

inductive Occupant where
  | file (contents : ByteArray)
  | directory

abbrev Storage := String → Option Occupant

/-- What is said of a directory in the place of a file. -/
def directoryMessage (name : String) : String := "[Errno 21] Is a directory: " ++ quoted name

inductive SaveFault where
  | missingDirectory (name : String)
  | directory (name : String)
  deriving DecidableEq, Repr

def SaveFault.message : SaveFault → String
  | .missingDirectory name => "Cannot save file into a non-existent directory: '" ++ name ++ "'"
  | .directory name => directoryMessage name

namespace Storage

def empty : Storage := fun _ => none

def isDirectory (storage : Storage) (name : String) : Bool :=
  match storage name with
  | some .directory => true
  | _ => false

/-- The directory that is to hold the file has to be there already. A name that
ends in a slash means a directory, whether it is there or not. -/
def saveFault? (storage : Storage) (name : String) : Option SaveFault :=
  let parent := (Path.ofText name).parent.text
  if !storage.isDirectory parent then some (.missingDirectory parent)
  else if name.endsWith "/" || storage.isDirectory name then some (.directory name)
  else none

end Storage

end InfixCalculator
