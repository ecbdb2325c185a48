import Mathlib.Data.List.Pairwise
import ScopedCommands.Proofs.Template.Merging

namespace ScopedCommands

open Outcome

theorem Files.read_eq_ok {files : Files} {path text : String} :
    files.read path = .ok text ↔ files path = .text text := by
  unfold read
  split <;> simp_all

namespace Registry

structure TemplateFile (files : Files) (directory file : String) : Prop where
  listed : ∃ names, files directory = .directory names ∧ file ∈ names
  regular : (∃ text, files (Path.join directory file) = .text text) ∨
    files (Path.join directory file) = .binary
  extension : Path.extension (Path.join directory file) ∈ [some "yaml", some "yml", some "toml"]

inductive Declares (files : Files) (path : String) (templates : Dict Template) : Prop where
  | toml {text : String} (content : files path = .text text)
      (named : Path.extension path = some "toml")
      (decoded : decodeToml Template.decodeFile text files.toml = .ok templates)
  | yaml {text : String} (content : files path = .text text)
      (named : Path.extension path ≠ some "toml")
      (decoded : decodeYaml Template.decodeFile text files.yaml = .ok templates)

structure Loads (files : Files) (path : String) (templates : Dict Template) : Prop where
  declares : Declares files path templates
  checked : ∀ name t, templates.get? name = some t → t.check name = .ok ()

/-- Why a file cannot be loaded. Its templates are checked in the order of their names. -/
inductive FileFault (files : Files) (path : String) : LoadError → Prop where
  | unreadable (content : ∀ text, files path ≠ .text text) :
      FileFault files path (.file .unreadable)
  | badToml {text : String} (content : files path = .text text)
      (named : Path.extension path = some "toml")
      (undecoded : ∀ templates, decodeToml Template.decodeFile text files.toml ≠ .ok templates) :
      FileFault files path (.file .badToml)
  | badYaml {text : String} (content : files path = .text text)
      (named : Path.extension path ≠ some "toml")
      (undecoded : ∀ templates, decodeYaml Template.decodeFile text files.yaml ≠ .ok templates) :
      FileFault files path (.file .badYaml)
  | refused {templates : Dict Template} {name : String} {t : Template} {cause : TemplateError}
      (declares : Declares files path templates) (found : templates.get? name = some t)
      (failed : t.check name = .error cause)
      (first : ∀ earlier other, earlier < name → templates.get? earlier = some other →
        other.check earlier = .ok ()) : FileFault files path (.template cause)

variable {files : Files} {path directory file name : String} {r next : Registry}
  {templates others : Dict Template} {paths : List String} {e : LoadError}

def decodeAs (files : Files) (path text : String) : Except FileError (Dict Template) :=
  match Path.extension path with
  | some "toml" => decodeToml Template.decodeFile text files.toml
  | _ => decodeYaml Template.decodeFile text files.yaml

theorem loadFile_eq (files : Files) (path : String) : loadFile files path =
    (do
      let text ← (files.read path).mapError .file
      let templates ← (decodeAs files path text).mapError .file
      (ofTemplates templates path).mapError .template) := rfl

theorem decodeAs_toml (named : Path.extension path = some "toml") (text : String) :
    decodeAs files path text = decodeToml Template.decodeFile text files.toml := by
  unfold decodeAs
  split
  next => rfl
  next other => exact absurd named other

theorem decodeAs_yaml (named : Path.extension path ≠ some "toml") (text : String) :
    decodeAs files path text = decodeYaml Template.decodeFile text files.yaml := by
  unfold decodeAs
  split
  next toml => exact absurd toml named
  next => rfl

theorem declares_iff : Declares files path templates ↔
    ∃ text, files path = .text text ∧ decodeAs files path text = .ok templates := by
  constructor
  · rintro (⟨content, named, decoded⟩ | ⟨content, named, decoded⟩)
    · exact ⟨_, content, by rw [decodeAs_toml named, decoded]⟩
    · exact ⟨_, content, by rw [decodeAs_yaml named, decoded]⟩
  · rintro ⟨text, content, decoded⟩
    by_cases named : Path.extension path = some "toml"
    · rw [decodeAs_toml named] at decoded
      exact .toml content named decoded
    · rw [decodeAs_yaml named] at decoded
      exact .yaml content named decoded

theorem Declares.unique (h : Declares files path templates) (k : Declares files path others) :
    templates = others := by
  obtain ⟨text, content, decoded⟩ := declares_iff.1 h
  obtain ⟨_, again, other⟩ := declares_iff.1 k
  rw [content] at again
  cases again
  rw [decoded] at other
  exact Except.ok.inj other

theorem loads_iff : Loads files path templates ↔ Declares files path templates ∧
    ∀ e ∈ templates.entries, e.2.check e.1 = .ok () := by
  constructor
  · rintro ⟨declares, checked⟩
    exact ⟨declares, fun e member => checked e.1 e.2 (Dict.mem_entries_iff.1 member)⟩
  · rintro ⟨declares, accepted⟩
    exact ⟨declares, fun name t found => accepted (name, t) (Dict.mem_entries_iff.2 found)⟩

theorem loadFile_eq_ok : loadFile files path = .ok r ↔
    ∃ templates, Loads files path templates ∧ r = templates.map fun _ t => ⟨t, path⟩ := by
  simp only [loadFile_eq, bind_eq_ok, mapError_eq_ok, Files.read_eq_ok, ofTemplates_eq_ok,
    loads_iff, declares_iff]
  constructor
  · rintro ⟨text, content, templates, decoded, accepted, same⟩
    exact ⟨templates, ⟨⟨text, content, decoded⟩, accepted⟩, same⟩
  · rintro ⟨templates, ⟨⟨text, content, decoded⟩, accepted⟩, same⟩
    exact ⟨text, content, templates, decoded, accepted, same⟩

theorem fault_of_undecoded {text : String} {cause : FileError}
    (content : files path = .text text) (undecoded : decodeAs files path text = .error cause) :
    FileFault files path (.file cause) := by
  by_cases named : Path.extension path = some "toml"
  · rw [decodeAs_toml named] at undecoded
    have told : cause = .badToml := by
      unfold decodeToml at undecoded
      split at undecoded <;> cases undecoded
      rfl
    rw [told]
    exact .badToml content named (by simp [undecoded])
  · rw [decodeAs_yaml named] at undecoded
    have told : cause = .badYaml := by
      unfold decodeYaml at undecoded
      split at undecoded <;> cases undecoded
      rfl
    rw [told]
    exact .badYaml content named (by simp [undecoded])

theorem fault_of_refused {cause : TemplateError} (declares : Declares files path templates)
    (refused : ofTemplates templates path = .error cause) :
    FileFault files path (.template cause) := by
  rcases ofTemplates_cases templates path with
    ⟨_, done⟩ | ⟨before, name, t, after, other, whole, accepted, failed, stopped⟩
  · rw [done] at refused
    cases refused
  · rw [stopped] at refused
    cases refused
    refine .refused declares (Dict.mem_entries_iff.1 (by simp [whole])) failed ?_
    intro earlier own less found
    have member : (earlier, own) ∈ before :=
      (Dict.mem_before_iff Prod.fst templates.sorted whole).2 ⟨Dict.mem_entries_iff.2 found, less⟩
    exact accepted (earlier, own) member

theorem fault_of_loadFile (failed : loadFile files path = .error e) : FileFault files path e := by
  rw [loadFile_eq] at failed
  rcases bind_eq_error.1 failed with unread | ⟨text, content, failed⟩
  · obtain ⟨cause, unread, rfl⟩ := mapError_eq_error.1 unread
    unfold Files.read at unread
    split at unread
    · cases unread
    next other =>
      cases unread
      exact .unreadable other
  · have content := Files.read_eq_ok.1 (mapError_eq_ok.1 content)
    rcases bind_eq_error.1 failed with unread | ⟨templates, decoded, failed⟩
    · obtain ⟨cause, undecoded, rfl⟩ := mapError_eq_error.1 unread
      exact fault_of_undecoded content undecoded
    · obtain ⟨cause, refused, rfl⟩ := mapError_eq_error.1 failed
      exact fault_of_refused (declares_iff.2 ⟨text, content, mapError_eq_ok.1 decoded⟩) refused

def fileContent (files : Files) (path : String) : Registry :=
  (loadFile files path).toOption.getD .empty

theorem loadFile_of_loads (loads : Loads files path templates) :
    loadFile files path = .ok (fileContent files path) ∧
      fileContent files path = templates.map fun _ t => ⟨t, path⟩ := by
  have loaded := loadFile_eq_ok.2 ⟨templates, loads, rfl⟩
  rw [fileContent, loaded]
  exact ⟨rfl, rfl⟩

def loadNext (files : Files) (r : Registry) (path : String) : Except LoadError Registry := do
  let loaded ← loadFile files path
  (r.merged loaded).mapError .template

theorem loadFiles_eq_foldlM (files : Files) (r : Registry) (paths : List String) :
    loadFiles files r paths = paths.foldlM (loadNext files) r := by
  induction paths generalizing r with
  | nil => rfl
  | cons path rest ih =>
    rw [loadFiles, List.foldlM_cons, loadNext]
    cases loadFile files path with
    | error e => rfl
    | ok loaded =>
      simp only [bind, Except.bind, merged]
      rcases r.merge loaded with ⟨_ | _, after⟩
      · rfl
      · exact ih after

theorem loadFiles_eq_ok : loadFiles files r paths = .ok next ↔
    (∀ path ∈ paths, ∃ templates, Loads files path templates) ∧
      mergeAll r (paths.map (fileContent files)) = .ok next := by
  rw [loadFiles_eq_foldlM, mergeAll]
  induction paths generalizing r with
  | nil => simp [pure, Except.pure]
  | cons path rest ih =>
    rw [List.foldlM_cons, bind_eq_ok, List.map_cons, List.foldlM_cons, bind_eq_ok,
      List.forall_mem_cons]
    simp only [ih, loadNext, bind_eq_ok, mapError_eq_ok]
    constructor
    · rintro ⟨after, ⟨loaded, read, merged⟩, others, last⟩
      obtain ⟨templates, loads, rfl⟩ := loadFile_eq_ok.1 read
      rw [← (loadFile_of_loads loads).2] at merged
      exact ⟨⟨⟨templates, loads⟩, others⟩, after, merged, last⟩
    · rintro ⟨⟨⟨templates, loads⟩, others⟩, after, merged, last⟩
      exact ⟨after, ⟨_, (loadFile_of_loads loads).1, merged⟩, others, last⟩

def fileNames (files : Files) (directory : String) : List String :=
  match files directory with
  | .directory names => (NameSet.ofNames names).keys.filter fun file =>
      isTemplateFile files (Path.join directory file)
  | _ => []

theorem filesIn_eq (files : Files) (directory : String) :
    filesIn files directory = (fileNames files directory).map (Path.join directory) := by
  unfold filesIn fileNames
  cases files directory with
  | directory names => exact List.filter_map
  | missing | text | binary => rfl

theorem fileNames_pairwise (files : Files) (directory : String) :
    (fileNames files directory).Pairwise (· < ·) := by
  unfold fileNames
  split
  · exact (Dict.keys_pairwise _).filter _
  · exact .nil

theorem mem_fileNames : file ∈ fileNames files directory ↔ TemplateFile files directory file := by
  have regular : isTemplateFile files (Path.join directory file) = true ↔
      ((∃ text, files (Path.join directory file) = .text text) ∨
        files (Path.join directory file) = .binary) ∧
      Path.extension (Path.join directory file) ∈ [some "yaml", some "yml", some "toml"] := by
    unfold isTemplateFile
    rw [Bool.and_eq_true, List.contains_iff_mem]
    refine and_congr_left fun _ => ?_
    cases files (Path.join directory file) <;> simp
  unfold fileNames
  constructor
  · intro member
    split at member
    next names listed =>
      obtain ⟨inside, own⟩ := List.mem_filter.1 member
      rw [Dict.mem_keys_iff, NameSet.contains_ofNames] at inside
      obtain ⟨kind, extension⟩ := regular.1 own
      exact ⟨⟨names, listed, inside⟩, kind, extension⟩
    · cases member
  · rintro ⟨⟨names, listed, inside⟩, kind, extension⟩
    rw [listed]
    refine List.mem_filter.2 ⟨?_, regular.2 ⟨kind, extension⟩⟩
    rwa [Dict.mem_keys_iff, NameSet.contains_ofNames]

def Taken (files : Files) (directory file name : String) : Prop :=
  ∃ first, first < file ∧ TemplateFile files directory first ∧
    ∃ templates, Declares files (Path.join directory first) templates ∧
      templates.contains name = true

def AddsNew (files : Files) (directory file : String) : Prop :=
  ∃ templates, Loads files (Path.join directory file) templates ∧
    ∀ name, templates.contains name = true → ¬ Taken files directory file name

inductive FileStops (files : Files) (directory file : String) : LoadError → Prop where
  | unloadable {e : LoadError} (fault : FileFault files (Path.join directory file) e) :
      FileStops files directory file e
  | collides {templates others : Dict Template} {first name : String}
      (loads : Loads files (Path.join directory file) templates)
      (inside : templates.contains name = true) (earlier : first < file)
      (listed : TemplateFile files directory first)
      (declares : Declares files (Path.join directory first) others)
      (taken : others.contains name = true)
      (least : ∀ other, other < name → templates.contains other = true →
        ¬ Taken files directory file other) :
      FileStops files directory file (.template
        (.duplicateTemplate name (Path.join directory first) (Path.join directory file)))

/-- What loading a directory gives. -/
structure LoadTold (files : Files) (directory : String) : Prop where
  accepted : (∃ r, loadDirectory files directory = .ok r) ↔
    (∀ file, TemplateFile files directory file →
      ∃ templates, Loads files (Path.join directory file) templates) ∧
    ∀ first second, TemplateFile files directory first → TemplateFile files directory second →
      first ≠ second → ∀ templates others, Declares files (Path.join directory first) templates →
        Declares files (Path.join directory second) others →
          ∀ name, templates.contains name = true → others.contains name = false
  union : ∀ r, loadDirectory files directory = .ok r → ∀ name t source,
    r.get? name = some ⟨t, source⟩ ↔ ∃ file templates, TemplateFile files directory file ∧
      Declares files (Path.join directory file) templates ∧ templates.get? name = some t ∧
        source = Path.join directory file
  refused : ∀ e, loadDirectory files directory = .error e →
    ∃ file, TemplateFile files directory file ∧ FileStops files directory file e ∧
      ∀ earlier, earlier < file → TemplateFile files directory earlier →
        AddsNew files directory earlier

variable {entry : StoredTemplate}

theorem get?_fileContent (loads : Loads files path templates) :
    (fileContent files path).get? name = some entry ↔
      templates.get? name = some entry.template ∧ entry.source = path := by
  rw [(loadFile_of_loads loads).2, Dict.get?_map, Option.map_eq_some_iff]
  constructor
  · rintro ⟨t, found, rfl⟩
    exact ⟨found, rfl⟩
  · rintro ⟨found, rfl⟩
    exact ⟨entry.template, found, rfl⟩

theorem contains_fileContent (loads : Loads files path templates) :
    (fileContent files path).contains name = templates.contains name := by
  rw [(loadFile_of_loads loads).2, Dict.contains_map]

theorem loadFiles_empty_eq_ok {names : List String} :
    loadFiles files empty (names.map (Path.join directory)) = .ok r ↔
      (∀ file ∈ names, ∃ templates, Loads files (Path.join directory file) templates) ∧
        (names.map fun file => fileContent files (Path.join directory file)).Pairwise Apart ∧
        r = (names.map fun file => fileContent files (Path.join directory file)).foldl
          Dict.union empty := by
  have first : ∀ x ∈ names.map fun file => fileContent files (Path.join directory file),
      Apart empty x := by
    intro x _ name impossible
    cases impossible
  rw [loadFiles_eq_ok, List.forall_mem_map, List.map_map, mergeAll_eq_ok, List.pairwise_cons]
  exact and_congr_right fun _ => and_congr_left fun _ => and_iff_right first

theorem get?_of_loadFiles {names : List String}
    (loaded : loadFiles files empty (names.map (Path.join directory)) = .ok r) :
    r.get? name = some entry ↔ ∃ file ∈ names, ∃ templates,
      Loads files (Path.join directory file) templates ∧
        templates.get? name = some entry.template ∧ entry.source = Path.join directory file := by
  obtain ⟨loads, apart, rfl⟩ := loadFiles_empty_eq_ok.1 loaded
  have first : (Registry.empty :: names.map fun file =>
      fileContent files (Path.join directory file)).Pairwise Apart := by
    refine List.pairwise_cons.2 ⟨fun x _ name impossible => ?_, apart⟩
    cases impossible
  rw [get?_foldl_union first]
  constructor
  · rintro ⟨x, member, found⟩
    rcases List.mem_cons.1 member with rfl | member
    · cases found
    · obtain ⟨file, inside, rfl⟩ := List.mem_map.1 member
      obtain ⟨templates, own⟩ := loads file inside
      exact ⟨file, inside, templates, own, (get?_fileContent own).1 found⟩
  · rintro ⟨file, inside, templates, own, found⟩
    exact ⟨_, List.mem_cons_of_mem _ (List.mem_map_of_mem inside), (get?_fileContent own).2 found⟩

theorem apart_fileContent {other : String} (loads : Loads files path templates)
    (again : Loads files other others) : (fileContent files path).Apart (fileContent files other) ↔
      ∀ name, templates.contains name = true → others.contains name = false := by
  simp only [Apart, contains_fileContent loads, contains_fileContent again]

theorem apart_of_pairwise {names : List String}
    (apart : (names.map fun file => fileContent files (Path.join directory file)).Pairwise Apart)
    {first second : String} (one : first ∈ names) (two : second ∈ names) (differ : first ≠ second)
    (own : Loads files (Path.join directory first) templates)
    (other : Loads files (Path.join directory second) others) :
    ∀ name, templates.contains name = true → others.contains name = false := by
  have symm : Std.Symm fun first second => (fileContent files (Path.join directory first)).Apart
      (fileContent files (Path.join directory second)) := ⟨fun _ _ => Apart.symm⟩
  exact (apart_fileContent own other).1 ((List.pairwise_map.1 apart).forall one two differ)

theorem loadDirectory_eq (files : Files) (directory : String) : loadDirectory files directory =
    loadFiles files empty ((fileNames files directory).map (Path.join directory)) := by
  rw [loadDirectory, filesIn_eq]

theorem loadDirectory_isOk_iff : (∃ r, loadDirectory files directory = .ok r) ↔
    (∀ file, TemplateFile files directory file →
      ∃ templates, Loads files (Path.join directory file) templates) ∧
    ∀ first second, TemplateFile files directory first → TemplateFile files directory second →
      first ≠ second → ∀ templates others, Declares files (Path.join directory first) templates →
        Declares files (Path.join directory second) others →
          ∀ name, templates.contains name = true → others.contains name = false := by
  rw [loadDirectory_eq]
  simp only [loadFiles_empty_eq_ok, exists_and_left, exists_eq, and_true, mem_fileNames]
  refine and_congr_right fun loads => ?_
  constructor
  · intro apart first second one two differ templates others declares also
    obtain ⟨_, own⟩ := loads first one
    obtain ⟨_, other⟩ := loads second two
    obtain rfl := own.declares.unique declares
    obtain rfl := other.declares.unique also
    exact apart_of_pairwise apart (mem_fileNames.2 one) (mem_fileNames.2 two) differ own other
  · intro apart
    have nodup : (fileNames files directory).Nodup :=
      (fileNames_pairwise files directory).imp fun less => String.ne_of_lt less
    refine List.pairwise_map.2 (nodup.pairwise_of_forall_ne fun first one second two differ => ?_)
    rw [mem_fileNames] at one two
    obtain ⟨_, own⟩ := loads first one
    obtain ⟨_, other⟩ := loads second two
    exact (apart_fileContent own other).2
      (apart first second one two differ _ _ own.declares other.declares)

theorem get?_loadDirectory (loaded : loadDirectory files directory = .ok r) (name : String)
    (t : Template) (source : String) : r.get? name = some ⟨t, source⟩ ↔
      ∃ file templates, TemplateFile files directory file ∧
        Declares files (Path.join directory file) templates ∧ templates.get? name = some t ∧
          source = Path.join directory file := by
  have loads := (loadDirectory_isOk_iff.1 ⟨r, loaded⟩).1
  rw [loadDirectory_eq] at loaded
  rw [get?_of_loadFiles loaded]
  constructor
  · rintro ⟨file, inside, templates, own, found, same⟩
    exact ⟨file, templates, mem_fileNames.1 inside, own.declares, found, same⟩
  · rintro ⟨file, templates, inside, declares, found, same⟩
    obtain ⟨_, own⟩ := loads file inside
    obtain rfl := own.declares.unique declares
    exact ⟨file, mem_fileNames.2 inside, _, own, found, same⟩

theorem contains_of_loadFiles {names : List String}
    (loaded : loadFiles files empty (names.map (Path.join directory)) = .ok r) :
    r.contains name = true ↔ ∃ file ∈ names, ∃ templates,
      Declares files (Path.join directory file) templates ∧ templates.contains name = true := by
  have loads := (loadFiles_empty_eq_ok.1 loaded).1
  simp only [contains_eq_true_iff, get?_of_loadFiles loaded]
  constructor
  · rintro ⟨entry, file, inside, templates, own, found, _⟩
    exact ⟨file, inside, templates, own.declares, by simp [Dict.contains, found]⟩
  · rintro ⟨file, inside, templates, declares, found⟩
    obtain ⟨_, own⟩ := loads file inside
    obtain rfl := own.declares.unique declares
    obtain ⟨t, found⟩ := Option.isSome_iff_exists.1 found
    exact ⟨⟨t, Path.join directory file⟩, file, inside, _, own, found, rfl⟩

/-- Files that were loaded one after the other, up to one of the directory, have new names each. -/
theorem addsNew_of_loadFiles {before after : List String}
    (whole : fileNames files directory = before ++ file :: after)
    (loaded : loadFiles files empty (before.map (Path.join directory)) = .ok r) {earlier : String}
    (member : earlier ∈ before) : AddsNew files directory earlier := by
  obtain ⟨loads, apart, _⟩ := loadFiles_empty_eq_ok.1 loaded
  obtain ⟨templates, own⟩ := loads earlier member
  refine ⟨templates, own, fun name inside => ?_⟩
  rintro ⟨first, less, listed, others, declares, taken⟩
  have early : first ∈ before := by
    have ordered := fileNames_pairwise files directory
    have own := (Dict.mem_before_iff id ordered whole).1 member
    exact (Dict.mem_before_iff id ordered whole).2
      ⟨mem_fileNames.2 listed, String.lt_trans less own.2⟩
  obtain ⟨_, other⟩ := loads first early
  obtain rfl := other.declares.unique declares
  have free := apart_of_pairwise apart early member (String.ne_of_lt less) other own name taken
  rw [inside] at free
  cases free

theorem stops_of_loadDirectory (failed : loadDirectory files directory = .error e) :
    ∃ file, TemplateFile files directory file ∧ FileStops files directory file e ∧
      ∀ earlier, earlier < file → TemplateFile files directory earlier →
        AddsNew files directory earlier := by
  rw [loadDirectory_eq, loadFiles_eq_foldlM] at failed
  obtain ⟨paths, path, rest, mid, split, reached, stops⟩ := foldlM_eq_error.1 failed
  obtain ⟨before, later, whole, rfl, tail⟩ := List.map_eq_append_iff.1 split
  obtain ⟨file, after, rfl, rfl, _⟩ := List.map_eq_cons_iff.1 tail
  rw [← loadFiles_eq_foldlM] at reached
  have before_iff : ∀ other, other ∈ before ↔ TemplateFile files directory other ∧ other < file := by
    intro other
    rw [Dict.mem_before_iff id (fileNames_pairwise files directory) whole, mem_fileNames]
    rfl
  refine ⟨file, mem_fileNames.1 (by simp [whole]), ?_, fun earlier less listed =>
    addsNew_of_loadFiles whole reached ((before_iff earlier).2 ⟨listed, less⟩)⟩
  rcases bind_eq_error.1 stops with unloadable | ⟨loaded, read, stops⟩
  · exact .unloadable (fault_of_loadFile unloadable)
  · obtain ⟨cause, collided, rfl⟩ := mapError_eq_error.1 stops
    obtain ⟨templates, own, rfl⟩ := loadFile_eq_ok.1 read
    rw [← (loadFile_of_loads own).2] at collided
    obtain ⟨name, old, new, shared, rfl, _⟩ :=
      (mergeTold _ _).refused _ (map_eq_error.1 collided)
    obtain ⟨first, early, others, other, known, source⟩ :=
      (get?_of_loadFiles reached).1 shared.own
    obtain ⟨found, same⟩ := (get?_fileContent own).1 shared.other
    obtain ⟨listed, less⟩ := (before_iff first).1 early
    rw [source, same]
    refine .collides own ?_ less listed other.declares ?_ fun key least inside => ?_
    · simp [Dict.contains, found]
    · simp [Dict.contains, known]
    · rintro ⟨first, less, listed, others, declares, taken⟩
      have also := (contains_of_loadFiles reached).2
        ⟨first, (before_iff first).2 ⟨listed, less⟩, others, declares, taken⟩
      have free := shared.least key least also
      rw [contains_fileContent own, inside] at free
      cases free

theorem loadTold (files : Files) (directory : String) : LoadTold files directory where
  accepted := loadDirectory_isOk_iff
  union _ loaded := get?_loadDirectory loaded
  refused _ := stops_of_loadDirectory

/-- Merging gives the union of registries that share no name, in any order of them, and otherwise
stops at the least shared name. Loading a directory gives the templates of all its files if each can
be loaded and no name is in two, and otherwise stops at the first file with a fault. -/
theorem merge_load_exact :
    (∀ a b : Registry, a.MergeTold b) ∧
    (∀ (r s : Registry) (rs ss : List Registry), (r :: rs).Pairwise Apart →
      (r :: rs).Perm (s :: ss) →
        ∃ all, mergeAll r rs = .ok all ∧ mergeAll s ss = .ok all ∧
          ∀ name entry, all.get? name = some entry ↔ ∃ x ∈ r :: rs, x.get? name = some entry) ∧
    ∀ files directory, LoadTold files directory :=
  ⟨mergeTold, fun _ _ _ _ => mergeAll_perm, loadTold⟩

def shelf : Files := .ofNodes fun
  | "shelf" => .directory ["c.yml", "b.toml", "notes.txt", "a.yaml"]
  | "shelf/a.yaml" => .text "templates:\n  lint:\n    cmd: eslint\n"
  | "shelf/b.toml" => .text "[templates.build]\ncmd = \"make\"\n\n[templates.lint]\ncmd = \"ruff\"\n"
  | "shelf/c.yml" => .text "templates: 1"
  | "shelf/notes.txt" => .text "none"
  | _ => .missing

theorem merge_load_exact_shelf :
    loadDirectory shelf "shelf" =
        .error (.template (.duplicateTemplate "lint" "shelf/a.yaml" "shelf/b.toml")) ∧
      ∃ file, TemplateFile shelf "shelf" file ∧ FileStops shelf "shelf" file
          (.template (.duplicateTemplate "lint" "shelf/a.yaml" "shelf/b.toml")) ∧
        ∀ earlier, earlier < file → TemplateFile shelf "shelf" earlier →
          AddsNew shelf "shelf" earlier := by
  have failed : loadDirectory shelf "shelf" =
      .error (.template (.duplicateTemplate "lint" "shelf/a.yaml" "shelf/b.toml")) :=
    error?_eq_some.1 (by decide +kernel)
  exact ⟨failed, (merge_load_exact.2.2 shelf "shelf").refused _ failed⟩

end Registry
end ScopedCommands
