import Uranus.Base.Module
import Uranus.Foundation.DirectoryTree
import Uranus.Foundation.Program
import Uranus.Foundation.Table

/-! The JSON files of the configuration. The key of a file is its path with dots in place
of the separators, and a name may have dots as well, so two files can have one key. -/
namespace Uranus
open Foundation Program

/-- `std::string`. -/
abbrev Text := List Char

inductive Platform where
  | windows
  | posix
deriving DecidableEq

namespace Platform

def separator : Platform → Char
  | windows => '\\'
  | posix => '/'

end Platform

/-- `std::filesystem::directory_entry` of a file, and what parsing its content makes. -/
structure DirectoryEntry (J : Type) where
  path : Text
  content : Except String J

/-- The names in a folder, of which none is empty or has a separator. -/
def GoodName (platform : Platform) (name : Text) : Prop := name ≠ [] ∧ platform.separator ∉ name

/-- What is under a path: folders, and files with what parsing their content makes. -/
structure ConfigFolder (platform : Platform) (J : Type) where
  entries : Directory Text (Except String J)
  named : entries.Named (GoodName platform)

variable {S J : Type}

/-- `TraverseFolder`, where `folder` has no separator at its end. -/
def traverseFolder (platform : Platform) (func : DirectoryEntry J → Program S Unit)
    (folder : Text) : Directory Text (Except String J) → Program S Unit
  | .empty => pure ()
  | .file name content rest => do
    func ⟨folder ++ platform.separator :: name, content⟩
    traverseFolder platform func folder rest
  | .folder name inner rest => do
    traverseFolder platform func (folder ++ platform.separator :: name) inner
    traverseFolder platform func folder rest

def stringReplace (source : Text) (toReplace replacement : Char) : Text :=
  match source with
  | [] => []
  | c :: rest =>
    (if c = toReplace then replacement else c) :: stringReplace rest toReplace replacement

def substr (source : Text) (pos count : Nat) : Text := (source.drop pos).take count

/-- `std::filesystem::path::filename`. -/
def filename (platform : Platform) (path : Text) : Text :=
  (path.reverse.takeWhile (· ≠ platform.separator)).reverse

/-- `std::filesystem::path::extension` of a file name: from its last dot on, which is
not the first character. -/
def extension (name : Text) : Text :=
  let suffix := (name.reverse.takeWhile (· ≠ '.')).reverse
  if suffix.length + 1 < name.length then '.' :: suffix else []

structure UConfig (J : Type) where
  state : EModuleState
  yamlPath : Text
  jsonPath : Text
  configMap : Table Text J

def serverConfigJson : Text := ['/', 'j', 's', 'o', 'n']

def jsonExtension : Text := ['.', 'j', 's', 'o', 'n']

namespace UConfig
variable {platform : Platform} {folder : Directory Text (Except String J)} {jsonPath : Text}
  {place other : List Text} {content : Except String J}

/-- `UConfig` as it is constructed, with the paths that are set. -/
def new (yamlPath jsonPath : Text) : UConfig J := ⟨.created, yamlPath, jsonPath, ∅⟩

/-- The path under which the JSON files are. -/
def jsonFolder (config : UConfig J) : Text :=
  if config.jsonPath ≠ [] then config.jsonPath else config.yamlPath ++ serverConfigJson

/-- The key of a file. -/
def key (platform : Platform) (jsonPath filepath : Text) : Text :=
  stringReplace (substr filepath (jsonPath.length + 1) (filepath.length - 6 - jsonPath.length))
    platform.separator '.'

/-- What `Initial` does with an entry. -/
def loadEntry (platform : Platform) (jsonPath : Text) (entry : DirectoryEntry J) :
    Program (UConfig J) Unit :=
  if extension (filename platform entry.path) = jsonExtension then
    match entry.content with
    | .error what => throw (.exception what)
    | .ok json => modify fun config =>
      { config with configMap := config.configMap.insert (key platform jsonPath entry.path) json }
  else pure ()

/-- `Initial`, where `server` is what loading and checking the file of the server comes
to, and `folder` what is under the path of the JSON files. -/
def initial (server : Except Fault Unit) (folder : ConfigFolder platform J) :
    Program (UConfig J) Unit := do
  let config ← get
  if config.state ≠ .created then pure ()
  else
    match server with
    | .error fault => throw fault
    | .ok () =>
      let path := config.jsonFolder
      traverseFolder platform (loadEntry platform path) path folder.entries
      modify fun config => { config with state := .initialized }

def findConfig (config : UConfig J) (path : Text) : Option J := config.configMap.lookup path

/-- The path of a file from the folder it is under. -/
def relativePath (platform : Platform) (place : List Text) : Text :=
  place.flatMap (platform.separator :: ·)

def entryAt (platform : Platform) (folder : Text) (file : List Text × Except String J) :
    DirectoryEntry J :=
  ⟨folder ++ relativePath platform file.1, file.2⟩

/-- The walk calls its function on every file, in the order of the listing. -/
theorem traverseFolder_eq (func : DirectoryEntry J → Program S Unit) (path : Text) :
    traverseFolder platform func path folder =
      forM (folder.files.map (entryAt platform path)) func := by
  induction folder generalizing path with
  | empty => rfl
  | file name content rest ih =>
    rw [traverseFolder, ih, Directory.files, List.map_cons, List.forM_cons]
    simp [entryAt, relativePath]
  | folder name inner rest innerIh ih =>
    have deeper : (inner.files.map (Prod.map (name :: ·) id)).map (entryAt platform path) =
        inner.files.map (entryAt platform (path ++ platform.separator :: name)) := by
      rw [List.map_map]
      apply List.map_congr_left
      intro file _
      simp [entryAt, relativePath]
    rw [traverseFolder, innerIh, ih, Directory.files, List.map_append, deeper, List.forM_append]

/-- The rest of a name after its last dot. -/
theorem exists_of_extension {name suffix : Text} (some : extension name = '.' :: suffix) :
    ∃ stem, name = stem ++ '.' :: suffix := by
  have halves := List.takeWhile_append_dropWhile (p := (· ≠ '.')) (l := name.reverse)
  unfold extension at some
  simp only at some
  split at some
  next longer =>
    obtain rfl := (List.cons.inj some).2
    cases before : name.reverse.dropWhile (· ≠ '.') with
    | nil =>
      rw [before, List.append_nil] at halves
      rw [halves, List.reverse_reverse] at longer
      omega
    | cons dot before' =>
      have isDot : dot = '.' := by
        have first := List.head?_dropWhile_not (· ≠ '.') name.reverse
        rw [before] at first
        simpa using first
      rw [before, isDot] at halves
      have whole := congrArg List.reverse halves
      rw [List.reverse_append, List.reverse_reverse, List.reverse_cons, List.append_assoc] at whole
      exact ⟨before'.reverse, whole.symm⟩
  next => cases some

theorem filename_append {path name : Text} (plain : platform.separator ∉ name) :
    filename platform (path ++ platform.separator :: name) = name := by
  rw [filename, List.reverse_append, List.reverse_cons, List.append_assoc,
    List.takeWhile_append_of_pos]
  · simp
  · intro c member
    simpa using fun same : c = platform.separator => plain (same ▸ List.mem_reverse.mp member)

theorem stringReplace_eq_map (source : Text) (toReplace replacement : Char) :
    stringReplace source toReplace replacement =
      source.map fun c => if c = toReplace then replacement else c := by
  induction source with
  | nil => rfl
  | cons c rest ih => rw [stringReplace, ih, List.map_cons]

/-- A JSON file in a folder. -/
structure JsonFile (folder : ConfigFolder platform J) (place : List Text)
    (content : Except String J) : Prop where
  has : folder.entries.HasFile place content
  json : extension (filename platform (relativePath platform place)) = jsonExtension

/-- The paths differ at most in dots that one has where the other has separators. -/
def Alike (platform : Platform) (place other : List Text) : Prop :=
  List.Forall₂ (fun c d => c = d ∨ (c = platform.separator ∧ d = '.') ∨
    (c = '.' ∧ d = platform.separator)) (relativePath platform place) (relativePath platform other)

/-- No two JSON files have paths that are alike. -/
def Unambiguous (folder : ConfigFolder platform J) : Prop :=
  ∀ place other content content', JsonFile folder place content →
    JsonFile folder other content' → Alike platform place other → place = other

/-- Every file is visited once, different JSON files have different keys, and what was
loaded is found under them. -/
structure KeysApart (folder : ConfigFolder platform J) : Prop where
  visited : ∃ files : List (List Text × Except String J), (files.map Prod.fst).Nodup ∧
    (∀ place content, (place, content) ∈ files ↔ folder.entries.HasFile place content) ∧
    ∀ (S : Type) (func : DirectoryEntry J → Program S Unit) (path : Text),
      traverseFolder platform func path folder.entries =
        forM (files.map (entryAt platform path)) func
  keys : ∀ jsonPath place other content content', JsonFile folder place content →
    JsonFile folder other content' → place ≠ other →
    key platform jsonPath (entryAt platform jsonPath (place, content)).path ≠
      key platform jsonPath (entryAt platform jsonPath (other, content')).path
  found : ∀ start config server, start.state = .created →
    initial server folder start = .ok () config →
    ∀ place content, JsonFile folder place content → ∃ json, content = .ok json ∧
      config.findConfig (key platform start.jsonFolder
        (entryAt platform start.jsonFolder (place, content)).path) = some json

/-- The path of a file ends with its name. -/
theorem exists_relativePath {folder : ConfigFolder platform J}
    (has : folder.entries.HasFile place content) : ∃ before last, platform.separator ∉ last ∧
      relativePath platform place = relativePath platform before ++ platform.separator :: last := by
  obtain ⟨name, _, rest, rfl⟩ := has.head
  obtain ⟨before, last, split⟩ := (List.eq_nil_or_concat (name :: rest)).resolve_left
    (List.cons_ne_nil _ _)
  refine ⟨before, last, (has.good folder.named last (by rw [split]; simp)).2, ?_⟩
  rw [split]
  simp [relativePath]

theorem filename_entryAt {folder : ConfigFolder platform J}
    (has : folder.entries.HasFile place content) (path : Text) :
    filename platform (entryAt platform path (place, content)).path =
      filename platform (relativePath platform place) := by
  obtain ⟨before, last, plain, whole⟩ := exists_relativePath has
  rw [entryAt, whole, filename_append plain, ← List.append_assoc, filename_append plain]

namespace JsonFile
variable {folder : ConfigFolder platform J}

theorem exists_body (file : JsonFile folder place content) :
    ∃ body, relativePath platform place = platform.separator :: (body ++ jsonExtension) := by
  obtain ⟨before, last, plain, whole⟩ := exists_relativePath file.has
  have json := file.json
  rw [whole, filename_append plain] at json
  obtain ⟨stem, rfl⟩ := exists_of_extension json
  rw [whole]
  cases before with
  | nil => exact ⟨stem, rfl⟩
  | cons first others =>
    refine ⟨first ++ relativePath platform others ++ platform.separator :: stem, ?_⟩
    simp [relativePath, jsonExtension]

/-- The key of a file is its path from the folder, without the extension. -/
theorem key_eq {body : Text} (jsonPath : Text)
    (path : relativePath platform place = platform.separator :: (body ++ jsonExtension)) :
    key platform jsonPath (jsonPath ++ relativePath platform place) =
      stringReplace body platform.separator '.' := by
  have rest : (jsonPath ++ platform.separator :: (body ++ jsonExtension)).drop
      (jsonPath.length + 1) = body ++ jsonExtension := by
    rw [List.drop_append, List.drop_of_length_le (by omega)]
    simp
  have count : (jsonPath ++ platform.separator :: (body ++ jsonExtension)).length - 6 -
      jsonPath.length = body.length := by
    have five : jsonExtension.length = 5 := rfl
    rw [List.length_append, List.length_cons, List.length_append]
    omega
  rw [path, key, substr, rest, count, List.take_left]

theorem alike_iff : Alike platform place other ↔
    stringReplace (relativePath platform place) platform.separator '.' =
      stringReplace (relativePath platform other) platform.separator '.' := by
  rw [stringReplace_eq_map, stringReplace_eq_map, ← List.forall₂_eq_eq_eq,
    List.forall₂_map_left_iff, List.forall₂_map_right_iff, Alike]
  have letters (c d : Char) : (c = d ∨ (c = platform.separator ∧ d = '.') ∨
      (c = '.' ∧ d = platform.separator)) ↔ (if c = platform.separator then '.' else c) =
        if d = platform.separator then '.' else d := by
    split <;> split <;> grind
  simp only [letters]

/-- Two files have one key exactly where their paths are alike. -/
theorem key_eq_iff {content' : Except String J} (jsonPath : Text)
    (first : JsonFile folder place content) (second : JsonFile folder other content') :
    key platform jsonPath (entryAt platform jsonPath (place, content)).path =
      key platform jsonPath (entryAt platform jsonPath (other, content')).path ↔
      Alike platform place other := by
  obtain ⟨body, path⟩ := first.exists_body
  obtain ⟨body', path'⟩ := second.exists_body
  rw [entryAt, entryAt, key_eq jsonPath path, key_eq jsonPath path', alike_iff, path, path']
  simp only [stringReplace_eq_map, List.map_cons, List.map_append, List.cons.injEq, true_and,
    List.append_left_inj]

end JsonFile

/-- An entry that `Initial` loads. -/
def Json (platform : Platform) (entry : DirectoryEntry J) : Prop :=
  extension (filename platform entry.path) = jsonExtension

variable {config later : UConfig J} {entry : DirectoryEntry J}

/-- One entry is stored under its key, or is none to load. -/
theorem loadEntry_ok (loaded : loadEntry platform jsonPath entry config = .ok () later) :
    (¬ Json platform entry ∧ later = config) ∨
      Json platform entry ∧ ∃ json, entry.content = .ok json ∧ later = { config with
        configMap := config.configMap.insert (key platform jsonPath entry.path) json } := by
  unfold loadEntry at loaded
  split at loaded
  next isJson =>
    cases parsed : entry.content with
    | error what =>
      rw [parsed] at loaded
      cases loaded
    | ok json =>
      rw [parsed] at loaded
      cases loaded
      exact .inr ⟨isJson, json, rfl, rfl⟩
  next notJson =>
    cases loaded
    exact .inl ⟨notJson, rfl⟩

/-- The entries that were loaded are all found, where their keys are different. -/
theorem found_of_loaded {entries : List (DirectoryEntry J)}
    (apart : entries.Pairwise fun first second => Json platform first → Json platform second →
      key platform jsonPath first.path ≠ key platform jsonPath second.path)
    (loaded : forM entries (loadEntry platform jsonPath) config = .ok () later) :
    (∀ entry ∈ entries, Json platform entry → ∃ json, entry.content = .ok json ∧
      later.findConfig (key platform jsonPath entry.path) = some json) ∧
    ∀ path, (∀ entry ∈ entries, Json platform entry → key platform jsonPath entry.path ≠ path) →
      later.findConfig path = config.findConfig path := by
  induction entries generalizing config with
  | nil =>
    cases loaded
    exact ⟨fun entry member => (nomatch member), fun _ _ => rfl⟩
  | cons first entries ih =>
    rw [List.forM_cons] at loaded
    obtain ⟨_, mid, head, rest⟩ := bind_eq_ok loaded
    obtain ⟨different, apart⟩ := List.pairwise_cons.mp apart
    obtain ⟨all, frame⟩ := ih apart rest
    constructor
    · refine List.forall_mem_cons.mpr ⟨?_, all⟩
      intro isJson
      rcases loadEntry_ok head with ⟨notJson, _⟩ | ⟨_, json, parsed, rfl⟩
      · exact absurd isJson notJson
      · refine ⟨json, parsed, ?_⟩
        rw [frame _ fun entry member other => (different entry member isJson other).symm,
          findConfig, Table.lookup_insert_ite, if_pos rfl]
    · intro path unnamed
      obtain ⟨own, others⟩ := List.forall_mem_cons.mp unnamed
      rw [frame path others]
      rcases loadEntry_ok head with ⟨_, rfl⟩ | ⟨isJson, json, _, rfl⟩
      · rfl
      · rw [findConfig, Table.lookup_insert_ite, if_neg (own isJson).symm]
        rfl

/-- `Initial` loads the files one after another. -/
theorem loaded_of_initial {server : Except Fault Unit} {folder : ConfigFolder platform J}
    (created : config.state = .created) (ran : initial server folder config = .ok () later) :
    ∃ mid, forM (folder.entries.files.map (entryAt platform config.jsonFolder))
        (loadEntry platform config.jsonFolder) config = .ok () mid ∧
      later = { mid with state := .initialized } := by
  rw [initial, get_bind, if_neg (by simp [created])] at ran
  cases server with
  | error fault => cases ran
  | ok value =>
    simp only [traverseFolder_eq] at ran
    obtain ⟨_, mid, loaded, rest⟩ := bind_eq_ok ran
    cases rest
    exact ⟨mid, loaded, rfl⟩

theorem Unambiguous.apart {folder : ConfigFolder platform J} (unambiguous : Unambiguous folder)
    (jsonPath : Text) : (folder.entries.files.map (entryAt platform jsonPath)).Pairwise
      fun first second => Json platform first → Json platform second →
        key platform jsonPath first.path ≠ key platform jsonPath second.path := by
  have jsonFile (file : List Text × Except String J) (listed : file ∈ folder.entries.files)
      (json : Json platform (entryAt platform jsonPath file)) : JsonFile folder file.1 file.2 := by
    have has := Directory.mem_files.mp listed
    rw [Json, filename_entryAt has] at json
    exact ⟨has, json⟩
  rw [List.pairwise_map]
  refine (List.pairwise_map.mp (Directory.files_nodup folder.named)).imp_of_mem ?_
  intro first second listed listed' different json json' same
  have file := jsonFile first listed json
  have file' := jsonFile second listed' json'
  have alike := (JsonFile.key_eq_iff jsonPath file file').mp same
  exact different (unambiguous _ _ _ _ file file' alike)

/-- The keys of a folder are different exactly where no two paths of JSON files are alike. -/
theorem keysApart_iff_unambiguous (folder : ConfigFolder platform J) :
    KeysApart folder ↔ Unambiguous folder := by
  constructor
  · intro apart place other content content' first second alike
    by_contra different
    exact apart.keys [] place other content content' first second different
      ((JsonFile.key_eq_iff [] first second).mpr alike)
  · intro unambiguous
    refine ⟨⟨_, Directory.files_nodup folder.named, fun _ _ => Directory.mem_files,
      fun _ func path => traverseFolder_eq func path⟩, ?_, ?_⟩
    · intro jsonPath place other content content' first second different same
      exact different (unambiguous place other content content' first second
        ((JsonFile.key_eq_iff jsonPath first second).mp same))
    · intro start config server created ran place content file
      obtain ⟨mid, loaded, rfl⟩ := loaded_of_initial created ran
      have json : Json platform (entryAt platform start.jsonFolder (place, content)) := by
        rw [Json, filename_entryAt file.has]
        exact file.json
      exact (found_of_loaded (unambiguous.apart _) loaded).1 _
        (List.mem_map_of_mem (Directory.mem_files.mpr file.has)) json

/-- A file `a.b.json` beside a folder `a` with a file `b.json`. -/
def dotted : ConfigFolder .posix Nat where
  entries := .file ['a', '.', 'b', '.', 'j', 's', 'o', 'n'] (.ok 1)
    (.folder ['a'] (.file ['b', '.', 'j', 's', 'o', 'n'] (.ok 2) .empty) .empty)
  named := by simp [Directory.Named, Directory.names, GoodName, Platform.separator]

/-- The two files have one key, and the second takes the place of the first. -/
theorem dotted_not_apart :
    ¬ (∀ folder : ConfigFolder .posix Nat, KeysApart folder) ∧
      ∃ config, initial (.ok ()) dotted (new [] ['c']) = .ok () config ∧
        config.configMap.entries.length = 1 := by
  refine ⟨?_, _, rfl, by decide⟩
  intro all
  have first : JsonFile dotted [['a', '.', 'b', '.', 'j', 's', 'o', 'n']] (.ok 1) :=
    ⟨.here _ _ _, by decide⟩
  have second : JsonFile dotted [['a'], ['b', '.', 'j', 's', 'o', 'n']] (.ok 2) :=
    ⟨.afterFile _ _ (.within _ _ (.here _ _ _)), by decide⟩
  exact (all dotted).keys [] _ _ _ _ first second (by decide) (by decide)

end UConfig
end Uranus
