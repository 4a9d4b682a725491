import MeteredContracts.Bytes

namespace MeteredContracts.Cli

inductive FileError
  | notFound
  | notADirectory
  | isADirectory
  | nameTooLong
  | badName
  | notText
  | other (text : String)
  deriving DecidableEq, Repr

def FileError.message : FileError → String
  | .notFound => "No such file or directory (os error 2)"
  | .notADirectory => "Not a directory (os error 20)"
  | .isADirectory => "Is a directory (os error 21)"
  | .nameTooLong => "File name too long (os error 36)"
  | .badName => "file name contained an unexpected NUL byte"
  | .notText => "stream did not contain valid UTF-8"
  | .other text => text

abbrev Directory := List (String × Bytes)

namespace Directory

inductive Node
  | file (bytes : Bytes)
  | directory

def node? (d : Directory) (path : List String) : Option Node :=
  let names (e : String × Bytes) : List String := e.1.splitOn "/"
  match d.find? fun e => names e == path with
  | some (_, bytes) => some (.file bytes)
  | none => if d.any fun e => path.isPrefixOf (names e) then some .directory else none

def follow (d : Directory) (place : List String) : List String → Except FileError Bytes
  | [] => .error .isADirectory
  | "" :: steps | "." :: steps => follow d place steps
  | ".." :: steps => if place.isEmpty then .error .notFound else follow d place.dropLast steps
  | name :: steps =>
    if 255 < name.utf8ByteSize then .error .nameTooLong
    else match d.node? (place ++ [name]), steps with
      | none, _ => .error .notFound
      | some (.file bytes), [] => .ok bytes
      | some (.file _), _ :: _ => .error .notADirectory
      | some .directory, steps => follow d (place ++ [name]) steps

def read (d : Directory) (path : String) : Except FileError Bytes :=
  if path.toList.contains '\x00' then .error .badName
  else if path.isEmpty || path.startsWith "/" then .error .notFound
  else d.follow [] (path.splitOn "/")

end Directory

end MeteredContracts.Cli
