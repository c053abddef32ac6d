import PlainTables.Database.Basic
import PlainTables.Proofs.Files.Changes

/-! Where the files of databases are. Valid names are single steps of a path, so a table of a
database below `data` is found three steps below the current directory, or refused for the length
of its name. -/
namespace PlainTables

open Unicode (isAlphabetic isWordChar)

/-! ### Names as steps of a path -/

namespace Name

variable {name : String}

theorem toList_of_valid (valid : isValid name = true) :
    ∃ first later, name.toList = first :: later ∧ isAlphabetic first = true ∧
      ∀ c ∈ later, isWordChar c = true := by
  unfold isValid at valid
  split at valid
  · cases valid
  · next first later split =>
    rw [Bool.and_eq_true,List.all_eq_true] at valid
    exact ⟨first,later,split,valid⟩

theorem not_mem_of_valid (valid : isValid name = true) {c : Char} (letter : isAlphabetic c = false)
    (word : isWordChar c = false) : c ∉ name.toList := by
  obtain ⟨first,later,split,alphabetic,words⟩ := toList_of_valid valid
  rw [split,List.mem_cons,not_or]
  constructor
  · rintro rfl
    rw [letter] at alphabetic
    cases alphabetic
  · intro member
    rw [words c member] at word
    cases word

end Name

namespace Path

/-- A step to a place below, and not to the same place or the one above. -/
structure IsStep (part : String) : Prop where
  filled : part ≠ ""
  here : part ≠ "."
  above : part ≠ ".."
  plain : '/' ∉ part.toList

theorem isStep_append {name suffix : String} (valid : Name.isValid name = true)
    (plain : '/' ∉ suffix.toList) : IsStep (name ++ suffix) := by
  obtain ⟨first,later,split,alphabetic,-⟩ := Name.toList_of_valid valid
  have slash := Name.not_mem_of_valid valid (show isAlphabetic '/' = false by decide) (by decide)
  have begins : (name ++ suffix).toList = first :: (later ++ suffix.toList) := by simp [split]
  have other : ∀ text : String, text.toList.head? ≠ some first → name ++ suffix ≠ text := by
    rintro _ differs rfl
    rw [begins] at differs
    exact differs rfl
  have point : first ≠ '.' := by
    rintro rfl
    exact absurd alphabetic (by decide)
  refine ⟨other "" (by simp),other "." ?_,other ".." ?_,by simp [slash,plain]⟩ <;>
    simpa using Ne.symm point

theorem isStep_of_valid {name : String} (valid : Name.isValid name = true) : IsStep name := by
  have step : IsStep (name ++ "") := isStep_append valid (by simp)
  rwa [String.append_empty] at step

theorem isStep_table {table : String} (valid : Name.isValid table = true) :
    IsStep (table ++ Database.tableSuffix) :=
  isStep_append valid (by decide)

theorem isStep_scratch {table : String} (valid : Name.isValid table = true) :
    IsStep (table ++ Database.tableSuffix ++ ".tmp") := by
  rw [String.append_assoc]
  exact isStep_append valid (by decide)

theorem ofText_step {part : String} (step : IsStep part) : ofText part = ⟨false,[part]⟩ := by
  have parts : partsOf part.toList = [part] := by
    have filled : part.toList ≠ [] := by simpa using step.filled
    simp [partsOf,filled,List.splitOn_eq_singleton step.plain]
  unfold ofText
  split
  · next rest split =>
    exact absurd (by simp [split]) step.plain
  · rw [parts]

def ofData : Path := ⟨false,["data"]⟩

def ofDatabase (name : String) : Path := ⟨false,["data",name]⟩

def ofFile (name file : String) : Path := ⟨false,["data",name,file]⟩

theorem ofText_data : ofText "data" = ofData :=
  ofText_step ⟨by decide,by decide,by decide,by decide⟩

theorem join_ofData {name : String} (step : IsStep name) :
    ofData.join (ofText name) = ofDatabase name := by
  rw [ofText_step step]
  rfl

theorem join_ofDatabase {name file : String} (filled : name ≠ "") (step : IsStep file) :
    (ofDatabase name).join (ofText file) = ofFile name file := by
  rw [ofText_step step]
  simp [join,ofDatabase,ofFile,filled]

theorem size_ofData : ofData.text.utf8ByteSize = 4 := by decide

theorem size_ofDatabase (name : String) :
    (ofDatabase name).text.utf8ByteSize = 5 + name.utf8ByteSize := by
  have text : (ofDatabase name).text = "" ++ ("data" ++ "/" ++ name) := rfl
  have data : "data".utf8ByteSize = 4 := by decide
  have slash : "/".utf8ByteSize = 1 := by decide
  have empty : "".utf8ByteSize = 0 := by decide
  rw [text]
  simp only [String.utf8ByteSize_append]
  omega

theorem size_ofFile (name file : String) :
    (ofFile name file).text.utf8ByteSize = 6 + name.utf8ByteSize + file.utf8ByteSize := by
  have text : (ofFile name file).text = "" ++ ("data" ++ "/" ++ name ++ "/" ++ file) := rfl
  have data : "data".utf8ByteSize = 4 := by decide
  have slash : "/".utf8ByteSize = 1 := by decide
  have empty : "".utf8ByteSize = 0 := by decide
  rw [text]
  simp only [String.utf8ByteSize_append]
  omega

end Path

/-! ### Names of tables in names of files -/

namespace Database

theorem tableOfFile?_eq_some {file name : String} :
    tableOfFile? file = some name ↔ file = name ++ tableSuffix ∧ Name.isValid name = true := by
  unfold tableOfFile?
  constructor
  · intro found
    dsimp only at found
    split at found
    · next ends =>
      cases found
      refine ⟨?_,ends.2⟩
      have whole := List.take_append_drop (file.toList.length - tableSuffix.toList.length) file.toList
      rw [ends.1] at whole
      rw [← String.toList_inj,String.toList_append,String.toList_ofList,whole]
    · cases found
  · rintro ⟨rfl,valid⟩
    simp [valid]

theorem nodup_tablesOfFiles {files : List String} (distinct : files.Nodup) :
    (files.filterMap tableOfFile?).Nodup := by
  apply distinct.filterMap
  intro file other table here there
  rw [(tableOfFile?_eq_some.mp here).1,(tableOfFile?_eq_some.mp there).1]

end Database

namespace FileTree

variable {tree : FileTree} {place : Location} {part : String} {rest : List String}

theorem follow_step (directory : tree.node? place = some .directory) (step : Path.IsStep part) :
    tree.follow place (part :: rest) =
      if maxNameBytes < part.utf8ByteSize then .error .invalidFilename
      else tree.follow (part :: place) rest := by
  rw [follow,directory]
  simp only [step.filled,step.here,step.above,or_self,if_false]

theorem follow_missing (missing : tree.node? place = none) :
    tree.follow place (part :: rest) = .error .notFound := by
  rw [follow,missing]

/-- The current directory is `work`, and it has the directory `data`. -/
structure HasData (tree : FileTree) : Prop where
  current : tree.current = ["work"]
  work : tree.node? ["work"] = some .directory
  data : tree.node? ["data","work"] = some .directory

theorem isStep_data : Path.IsStep "data" := ⟨by decide,by decide,by decide,by decide⟩

theorem locate_ofData (current : tree.current = ["work"])
    (work : tree.node? ["work"] = some .directory) :
    tree.locate .ofData = .ok ["data","work"] := by
  have short : ¬maxPathBytes < Path.ofData.text.utf8ByteSize := by rw [Path.size_ofData]; decide
  have parts : Path.ofData.parts = ["data"] := rfl
  rw [locate,if_neg short,if_neg (by decide),if_neg (by decide),current,parts,
    follow_step work isStep_data,if_neg (by decide),follow]

theorem locate_ofDatabase (has : HasData tree) {name : String} (step : Path.IsStep name) :
    tree.locate (.ofDatabase name) =
      if maxNameBytes < name.utf8ByteSize then .error .invalidFilename
      else .ok [name,"data","work"] := by
  have size := Path.size_ofDatabase name
  have parts : (Path.ofDatabase name).parts = ["data",name] := rfl
  have followed : tree.follow tree.current (Path.ofDatabase name).parts =
      if maxNameBytes < name.utf8ByteSize then .error .invalidFilename
      else .ok [name,"data","work"] := by
    rw [parts,has.current,follow_step has.work isStep_data,if_neg (by decide),
      follow_step has.data step]
    simp only [follow]
  rw [locate,followed]
  split
  · next long =>
    rw [size,maxPathBytes] at long
    rw [if_pos (by rw [maxNameBytes]; omega)]
  · rfl

theorem locate_ofDatabase_missing (current : tree.current = ["work"])
    (work : tree.node? ["work"] = some .directory) (missing : tree.node? ["data","work"] = none)
    (name : String) :
    tree.locate (.ofDatabase name) =
      if maxPathBytes < (Path.ofDatabase name).text.utf8ByteSize then .error .invalidFilename
      else .error .notFound := by
  have parts : (Path.ofDatabase name).parts = ["data",name] := rfl
  have followed : tree.follow tree.current (Path.ofDatabase name).parts = .error .notFound := by
    rw [parts,current,follow_step work isStep_data,if_neg (by decide),follow_missing missing]
  rw [locate,followed]
  rfl

theorem locate_ofFile (has : HasData tree) {name file : String}
    (directory : tree.node? [name,"data","work"] = some .directory) (step : Path.IsStep name)
    (fits : name.utf8ByteSize ≤ maxNameBytes) (stepFile : Path.IsStep file) :
    tree.locate (.ofFile name file) =
      if maxNameBytes < file.utf8ByteSize then .error .invalidFilename
      else .ok [file,name,"data","work"] := by
  have size := Path.size_ofFile name file
  have parts : (Path.ofFile name file).parts = ["data",name,file] := rfl
  have followed : tree.follow tree.current (Path.ofFile name file).parts =
      if maxNameBytes < file.utf8ByteSize then .error .invalidFilename
      else .ok [file,name,"data","work"] := by
    rw [parts,has.current,follow_step has.work isStep_data,if_neg (by decide),
      follow_step has.data step,if_neg (Nat.not_lt.mpr fits),follow_step directory stepFile]
    simp only [follow]
  rw [locate,followed]
  split
  · next long =>
    rw [size,maxPathBytes] at long
    rw [maxNameBytes] at fits
    rw [if_pos (by rw [maxNameBytes]; omega)]
  · rfl

end FileTree
end PlainTables
