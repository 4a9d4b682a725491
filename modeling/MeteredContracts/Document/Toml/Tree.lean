import MeteredContracts.Document.Basic

/-!
The tables of a TOML text while they are filled. Each table is defined once: by a header, by dotted
keys, or in one piece as a value. A table that was only passed on the way to another one is still
open to a header of its own.
-/

namespace MeteredContracts.Document.Toml

inductive Origin
  | header
  | path
  | dotted
  deriving DecidableEq, Repr

/-- An array of tables has its latest item first. -/
inductive Tree
  | value (d : Document)
  | table (origin : Origin) (fields : List (String × Tree))
  | tables (items : List (List (String × Tree)))
  deriving Inhabited

abbrev Fields := List (String × Tree)

mutual

def Tree.toDocument : Tree → Document
  | .value d => d
  | .table _ fields => .table (Fields.toDocuments fields)
  | .tables items => .list (Fields.lists items).reverse

def Fields.toDocuments : List (String × Tree) → List (String × Document)
  | [] => []
  | (key, t) :: rest => (key, t.toDocument) :: Fields.toDocuments rest

def Fields.lists : List (List (String × Tree)) → List Document
  | [] => []
  | fields :: rest => .table (Fields.toDocuments fields) :: Fields.lists rest

end

namespace Fields

def alter (key : String) (f : Option Tree → Option Tree) : Fields → Option Fields
  | [] => (f none).map fun t => [(key, t)]
  | (k, t) :: rest =>
    if k = key then (f (some t)).map fun t => (k, t) :: rest
    else (alter key f rest).map ((k, t) :: ·)

/-- Changes the table at the end of a path. Tables that are missing on the way are made; of the
others, dotted keys do not pass through one that has a header. -/
def descend (dotted : Bool) (f : Origin → Fields → Option Fields) :
    List String → Origin → Fields → Option Fields
  | [], origin, fields => f origin fields
  | key :: path, _, fields => fields.alter key fun
    | none =>
      let origin := if dotted then .dotted else .path
      (descend dotted f path origin []).map (.table origin)
    | some (.table origin sub) =>
      if dotted ∧ origin = .header then none
      else (descend dotted f path origin sub).map (.table origin)
    | some (.tables (last :: others)) =>
      (descend dotted f path .header last).map fun last => .tables (last :: others)
    | some (.tables []) | some (.value _) => none

def put (path : List String) (key : String) (d : Document) (fields : Fields) : Option Fields :=
  descend true (fun origin fields =>
      if decide (origin = .dotted) == path.isEmpty then none
      else fields.alter key fun
        | none => some (.value d)
        | some _ => none)
    path .header fields

def openTable (path : List String) (key : String) (fields : Fields) : Option Fields :=
  descend false (fun _ fields => fields.alter key fun
      | none => some (.table .header [])
      | some (.table .path sub) => some (.table .header sub)
      | some _ => none)
    path .header fields

def openItem (path : List String) (key : String) (fields : Fields) : Option Fields :=
  descend false (fun _ fields => fields.alter key fun
      | none => some (.tables [[]])
      | some (.tables items) => some (.tables ([] :: items))
      | some _ => none)
    path .header fields

def putUnder (header path : List String) (key : String) (d : Document) (fields : Fields) :
    Option Fields :=
  descend false (fun _ fields => put path key d fields) header .header fields

end Fields

end MeteredContracts.Document.Toml
