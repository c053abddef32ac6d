import PlainTables.Proofs.Database.Opening
import PlainTables.Proofs.Workspace.Confined
import PlainTables.Proofs.Workspace.Refinement

/-! Selecting a database. Main statement: a selection that succeeds has found or made the directory and
changed no file; one that fails has selected nothing and may have made directories on the way, but none
if the path descends. -/
namespace PlainTables.Workspace

open Actions FileTree

/-- The outcome of a selection, for the session and for the files. -/
theorem useDatabase_outcome (w : Workspace) (name : String) :
    match useDatabase name w with
    | .ok db after =>
      db = ⟨name,w.session.root.join (Path.ofText name)⟩ ∧
        after.session = { w.session with database := some db } ∧
        after.files.isDirectory (w.session.root.join (Path.ofText name)) = true ∧
        SameFiles w.files after.files
    | .error _ after =>
      after.session = w.session ∧
        MakesAlong (w.session.root.join (Path.ofText name)).stages w.files after.files ∧
        (w.files.Closed → w.files.Descends (w.session.root.join (Path.ofText name)) →
          after.files = w.files) := by
  have makes := Database.openIn_onlyMakes w.session.root name w.files
  cases run : useDatabase name w with
  | ok db after =>
    obtain ⟨files,opened,rfl⟩ := useDatabase_ok run
    rw [opened] at makes
    have here := Database.isDirectory_of_openIn opened
    obtain ⟨-,rfl⟩ := Database.openIn_eq_ok opened
    exact ⟨rfl,rfl,here,makes.toAddsDirectories.sameFiles⟩
  | error fault after =>
    obtain ⟨files,opened,rfl⟩ := useDatabase_eq_error.mp run
    rw [opened] at makes
    exact ⟨rfl,makes,fun closed descends => Database.openIn_unchanged closed descends opened⟩

/-- A session whose root is below a file. -/
def blocked : Workspace :=
  ⟨⟨[(["f","work"],.file "x".toUTF8),(["work"],.directory)],["work"]⟩,
    ⟨Path.ofText "f/data",none,.comma⟩⟩

theorem blocked_selects_nothing :
    ∃ after, useDatabase "d" blocked = .error (.io .notADirectory) after ∧
      after.files = blocked.files ∧ after.session.database = none := by
  have run : useDatabase "d" blocked = .error (.io .notADirectory) (left (useDatabase "d" blocked)) :=
    eq_error_of_outcome (by decide +kernel)
  have closed : blocked.files.Closed := closed_of_entries (by simp [blocked,node?,List.lookup_cons])
  have descends : blocked.files.Descends (blocked.session.root.join (Path.ofText "d")) :=
    descends_of_parts (by decide +kernel)
  have said := useDatabase_outcome blocked "d"
  rw [run] at said
  obtain ⟨session,-,same⟩ := said
  exact ⟨_,run,same closed descends,by rw [session]; rfl⟩

/-- The root is made before the name turns out to be too long, and it stays. -/
theorem longName_leaves_root :
    ∃ after, useDatabase longName (start .empty (Path.ofText "data") .comma) =
        .error (.io .invalidFilename) after ∧
      (start .empty (Path.ofText "data") .comma).files.isDirectory (Path.ofText "data") = false ∧
      after.files.isDirectory (Path.ofText "data") = true := by
  have holds := holds_empty .comma
  have long : ¬Room.ofFiles.database longName = true := by
    rw [Room.ofFiles_database,size_longName,maxNameBytes]
    omega
  have short : ¬maxPathBytes < (Path.ofDatabase longName).text.utf8ByteSize := by
    rw [Path.size_ofDatabase,size_longName,maxPathBytes]
    omega
  have fresh : longName ∉ (∅ : Databases) := by simp
  have absent : ¬FileTree.empty.isDirectory (.ofDatabase longName) = true :=
    mt (holds.isDirectory_ofDatabase isValid_longName).mp fresh
  have refused := holds.makeDirectories_missing (by decide +kernel) isValid_longName fresh short
  rw [if_neg long] at refused
  have opened : Database.openIn .ofData longName .empty =
      .error Room.refusal (FileTree.empty.put ["data","work"] .directory) := by
    rw [Database.openIn_of_valid isValid_longName,
      Path.join_ofData (Path.isStep_of_valid isValid_longName),if_neg absent,bind_of_error refused]
  exact ⟨_,useDatabase_eq_error.mpr ⟨_,opened,rfl⟩,by decide +kernel,by decide +kernel⟩

-- a path that goes up again behind a directory that has to be made
example : (left (useDatabase "d" { blocked with session.root := Path.ofText "m/../f" })).files.isDirectory
    (Path.ofText "m") = true := by decide +kernel

end PlainTables.Workspace
