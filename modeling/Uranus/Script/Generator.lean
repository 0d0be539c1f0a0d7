import Mathlib.Algebra.Group.Nat.Defs
import Mathlib.Data.List.Nodup

/-! The protocol ids of the script, which writes them twice: to an enum of C++, where
the compiler counts the end marker, and to an enum of Dart, where the script does.
Names of messages are identifiers in ASCII, and what is made of them is no word that a
language reserves. The fields and the constructor that follow the values in Dart are
left out. -/
namespace Uranus

/-- An entry of `proto_list`. -/
structure ProtoPackage where
  package : String
  src : String
  list : List String

namespace Generator
variable {packages : List ProtoPackage} {packageIndex protoIndex : Nat}

def pascalCaseToCamelCase (name : String) : String :=
  match name.toList with
  | [] => name
  | first :: rest => String.ofList (first.toLower :: rest)

def pascalToUpperSnake (name : String) : String :=
  match name.toList with
  | [] => name
  | first :: rest =>
    let res := first :: rest.flatMap fun c => if c.isUpper then ['_', c] else [c]
    String.ofList (res.map Char.toUpper)

example : pascalToUpperSnake "LoginRequest" = "LOGIN_REQUEST" := by decide

/-- A line in the braces of the enum of C++. -/
inductive CppLine where
  | comment (text : String)
  | blank
  | enumerator (name : String) (value : Option Nat)

def cppMessages (packageIndex protoIndex : Nat) : List String → List CppLine
  | [] => []
  | proto :: rest =>
    .enumerator (pascalToUpperSnake proto) (some (packageIndex * 100 + protoIndex)) ::
      cppMessages packageIndex (protoIndex + 1) rest

def cppPackages (packageIndex : Nat) : List ProtoPackage → List CppLine
  | [] => []
  | package :: rest =>
    .comment package.package :: .comment ("Source File: " ++ package.src) ::
      (cppMessages packageIndex 1 package.list ++ .blank :: cppPackages (packageIndex + 1) rest)

/-- The body of `EProtoType`. -/
def cppFile (packages : List ProtoPackage) : List CppLine :=
  cppPackages 11 packages ++ [.enumerator "PROTO_TYPE_MAX" none]

/-- The values of an enum of C++. Without a value, an enumerator is one more than
the one before it, and the first is 0. A value that is no `uint32_t` is refused. -/
def enumValues (previous : Option Nat) : List CppLine → Option (List (String × Nat))
  | [] => some []
  | .enumerator name value :: rest =>
    let id := value.getD (previous.elim 0 (· + 1))
    if id < 2 ^ 32 then (enumValues (some id) rest).map ((name, id) :: ·) else none
  | .comment _ :: rest => enumValues previous rest
  | .blank :: rest => enumValues previous rest

/-- An enum that declares a name twice is refused, in both languages. -/
def declareOnce {A : Type} (values : List (String × A)) : Option (List (String × A)) :=
  if (values.map Prod.fst).Nodup then some values else none

/-- What the compiler makes of the enum of C++. -/
def protoTypes (packages : List ProtoPackage) : Option (List (String × Nat)) :=
  (enumValues none (cppFile packages)).bind declareOnce

/-- A line of the enum of Dart. -/
inductive DartLine where
  | comment (text : String)
  | blank
  | value (name : String) (id : Nat) (message : String)

/-- The inner loop of the second file, with `last_id`. -/
def dartMessages (packageIndex protoIndex lastId : Nat) : List String → List DartLine × Nat
  | [] => ([], lastId)
  | proto :: rest =>
    let id := packageIndex * 100 + protoIndex
    let later :=
      dartMessages packageIndex (protoIndex + 1) (if id > lastId then id else lastId) rest
    (.value (pascalCaseToCamelCase proto) id proto :: later.1, later.2)

def dartPackages (packageIndex lastId : Nat) : List ProtoPackage → List DartLine × Nat
  | [] => ([], lastId)
  | package :: rest =>
    let messages := dartMessages packageIndex 1 lastId package.list
    let later := dartPackages (packageIndex + 1) messages.2 rest
    (.comment package.package :: .comment ("Source File: " ++ package.src) ::
      (messages.1 ++ .blank :: later.1), later.2)

/-- The values of `ProtocolType`. -/
def dartFile (packages : List ProtoPackage) : List DartLine :=
  let body := dartPackages 11 (11 * 100 + 1) packages
  body.1 ++ [.value "maxProtoType" (body.2 + 1) "MaxType"]

def dartValues : List DartLine → List (String × Nat × String)
  | [] => []
  | .value name id message :: rest => (name, id, message) :: dartValues rest
  | .comment _ :: rest => dartValues rest
  | .blank :: rest => dartValues rest

/-- What the compiler makes of the values of the enum of Dart. -/
def protocolTypes (packages : List ProtoPackage) : Option (List (String × Nat × String)) :=
  declareOnce (dartValues (dartFile packages))

/-- The messages of all packages, in the order of the files. -/
def messages (packages : List ProtoPackage) : List String := packages.flatMap ProtoPackage.list

/-- Neither enum declares a name twice or has a value that does not fit. Every message
has one id in both of them, and no two have the same. The end marker is above all of
them, and the same in both where there is a message. -/
def Consistent (packages : List ProtoPackage) : Prop :=
  ∃ assigned marker last,
    assigned.map Prod.fst = messages packages ∧
    protoTypes packages = some (assigned.map (fun message =>
      (pascalToUpperSnake message.1, message.2)) ++ [("PROTO_TYPE_MAX", marker)]) ∧
    protocolTypes packages = some (assigned.map (fun message =>
      (pascalCaseToCamelCase message.1, message.2, message.1)) ++
        [("maxProtoType", last, "MaxType")]) ∧
    (assigned.map Prod.snd).Nodup ∧
    (∀ message ∈ assigned, message.2 < marker ∧ message.2 < last) ∧
    (assigned ≠ [] → last = marker)

/-- The ids of a package end before those of the next package that has any. -/
def Spaced (packages : List ProtoPackage) : Prop :=
  ∀ i j earlier later, i < j → packages[i]? = some earlier → packages[j]? = some later →
    later.list ≠ [] → earlier.list.length ≤ 100 * (j - i)

/-- The id after the last one of each package is a `uint32_t`. -/
def Fits (packages : List ProtoPackage) : Prop :=
  ∀ i package, packages[i]? = some package → package.list ≠ [] →
    (11 + i) * 100 + package.list.length + 1 < 2 ^ 32

/-- No name is declared twice in either file, that of the end marker included. -/
def Distinct (packages : List ProtoPackage) : Prop :=
  ((messages packages).map pascalToUpperSnake ++ ["PROTO_TYPE_MAX"]).Nodup ∧
  ((messages packages).map pascalCaseToCamelCase ++ ["maxProtoType"]).Nodup

example : pascalToUpperSnake "AB" = pascalToUpperSnake "aB" := by decide

/-- The messages with the ids of both files. -/
def numbered (packageIndex protoIndex : Nat) : List String → List (String × Nat)
  | [] => []
  | proto :: rest => (proto, packageIndex * 100 + protoIndex) ::
      numbered packageIndex (protoIndex + 1) rest

def assigned (packageIndex : Nat) : List ProtoPackage → List (String × Nat)
  | [] => []
  | package :: rest => numbered packageIndex 1 package.list ++ assigned (packageIndex + 1) rest

/-- `last_id` after some messages. -/
def lastId (last : Nat) (messages : List (String × Nat)) : Nat :=
  messages.foldl (fun last message => if message.2 > last then message.2 else last) last

theorem Spaced.tail {package : ProtoPackage} (spaced : Spaced (package :: packages)) :
    Spaced packages := by
  intro i j earlier later before found other some
  have bound := spaced (i + 1) (j + 1) earlier later (by omega) found other some
  omega

end Generator
end Uranus
