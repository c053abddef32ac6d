import PlainTables.Proofs.Database.Listing
import PlainTables.Proofs.Database.Opening
import PlainTables.Proofs.Statement.Filterable

/-! New databases beside an open one. The statement names the new database by a bare word, and the
directory is found by taking the last step off the path that the open one was opened at. Main statement: the
new directory is made in the directory that has the open one if and only if that step is a name; if it is
not, the new directory is made inside of the open one. -/
namespace PlainTables

open Actions FileAction FileTree

/-! ### The statement -/

namespace Statement

open Token (ofWord isReserved)
open Phrase (ending)

variable {name : String} {statement : Statement}

/-- The text of a statement that makes a database, with the name as it is. -/
def createDatabase (name : String) : String := "CREATE DATABASE " ++ name ++ ";"

theorem tokens_createDatabase (valid : Name.isValid name = true) :
    Token.tokens (createDatabase name) =
      .ok ([.keyword .create,.keyword .database,ofWord name.toList] ++ ending) := by
  obtain ⟨filled,word,digits⟩ := Token.word_of_valid valid
  have text : (createDatabase name).toList = Token.written (.keyword .create) ++
      ' ' :: (Token.written (.keyword .database) ++ ' ' :: (name.toList ++ [';'])) := by
    show ("CREATE DATABASE " ++ name ++ ";").toList = _
    simp [Token.written,Keyword.word]
  have plain : Unicode.isWordChar ';' = false := by decide
  have last : Token.Reads [';'] [.semicolon] := Token.reads_token ';' [] Token.front_semicolon rfl .refl
  have named : Token.Reads (name.toList ++ [';']) [ofWord name.toList,.semicolon] :=
    Token.reads_word filled word digits (by simp [plain]) last
  have create : Token.Writable (.keyword .create) := trivial
  have database : Token.Writable (.keyword .database) := trivial
  have later := Token.Reads.of_written database (Token.parted_space _ _) (named.cons_blank rfl)
  have whole := Token.Reads.of_written create (Token.parted_space _ _) (later.cons_blank rfl)
  rw [← text] at whole
  have tokens := whole.scans.tokens
  rwa [String.ofList_toList] at tokens

theorem parse_createDatabase (valid : Name.isValid name = true)
    (free : isReserved name.toList = false) :
    parse (createDatabase name) = .ok (.useDatabase name) := by
  have same := Token.ofWord_name (Token.isPlainName_of_valid valid free)
  refine parse_eq_ok.mpr ⟨_,tokens_createDatabase valid,_,.useDatabase (.inl rfl) ?_ valid,rfl⟩
  rw [same,String.ofList_toList]
  rfl

/-- A reserved word is no name. -/
theorem parse_createDatabase_ne_ok (valid : Name.isValid name = true)
    (reserved : isReserved name.toList = true) : parse (createDatabase name) ≠ .ok statement := by
  intro parsed
  obtain ⟨tokens,scanned,words,spelled,rfl⟩ := parse_eq_ok.mp parsed
  rw [tokens_createDatabase valid,Except.ok.injEq] at scanned
  obtain rfl := List.append_cancel_right scanned
  cases spelled with
  | useDatabase _ named _ =>
    unfold isReserved at reserved
    split at reserved
    · next word => simp [word,Token.value?] at named
    · cases reserved

end Statement

/-! ### The directory -/

namespace Path

/-- The path of a new database of that name beside one that was opened at the path. -/
def beside (path : Path) (name : String) : Path := path.around.join (Path.ofText name)

theorem beside_eq {path : Path} {kept : List String} {name : String} (step : IsStep name)
    (around : path.around = ⟨path.absolute,kept⟩) (opened : kept.getLast? ≠ some "") :
    path.beside name = ⟨path.absolute,kept ++ [name]⟩ := by
  rw [beside,around,ofText_step step]
  simp [join,opened]

end Path

namespace Database

variable {tree after : FileTree} {path parent : Path} {home place : Location} {name : String}
  {db : Database} {cause : IoCause} {kept : List String} {outer : Location}

/-- A path of at least one part is the first of its stages to be made. -/
theorem makeDirectories_join (step : Path.IsStep name) : ∃ outer,
    makeDirectories (parent.join (Path.ofText name)) =
      ensureDirectories (parent.join (Path.ofText name) :: outer) := by
  obtain ⟨kept,joined⟩ : ∃ kept, parent.join ⟨false,[name]⟩ = ⟨parent.absolute,kept ++ [name]⟩ :=
    ⟨_,rfl⟩
  rw [Path.ofText_step step,joined,makeDirectories,stages_concat]
  exact ⟨_,rfl⟩

theorem openIn_of_absent (valid : Name.isValid name = true)
    (located : tree.locate (parent.join (Path.ofText name)) = .ok place)
    (absent : tree.node? place = none) : openIn parent name tree =
      .ok ⟨name,parent.join (Path.ofText name)⟩ (tree.put place .directory) := by
  have missing : ¬tree.isDirectory (parent.join (Path.ofText name)) = true := by
    rw [isDirectory_iff,located]
    rintro ⟨_,⟨⟩,directory⟩
    rw [absent] at directory
    cases directory
  have made : ensureDirectory (parent.join (Path.ofText name)) tree =
      .ok () (tree.put place .directory) := by
    rw [ensureDirectory,makeDirectory_eq_ok.mpr ⟨place,located,absent,rfl⟩]
  obtain ⟨outer,stages⟩ := makeDirectories_join (Path.isStep_of_valid valid)
  rw [openIn_of_valid valid,if_neg missing,stages,bind_of_ok (ensureDirectories_of_ok made)]
  rfl

theorem openIn_of_directory (valid : Name.isValid name = true)
    (located : tree.locate (parent.join (Path.ofText name)) = .ok place)
    (taken : tree.node? place = some .directory) : openIn parent name tree =
      .ok ⟨name,parent.join (Path.ofText name)⟩ tree := by
  rw [openIn_of_valid valid,if_pos (isDirectory_iff.mpr ⟨place,located,taken⟩)]

/-- A path whose directory cannot be made for a reason that no other directory helps against. -/
theorem openIn_of_refused (valid : Name.isValid name = true)
    (missing : ¬tree.isDirectory (parent.join (Path.ofText name)) = true)
    (refused : tree.makeDirectory (parent.join (Path.ofText name)) = .error cause)
    (other : cause ≠ .notFound) : openIn parent name tree = .error (.io cause) tree := by
  have failed : ensureDirectory (parent.join (Path.ofText name)) tree = .error (.io cause) tree := by
    simp [ensureDirectory,refused,missing]
  obtain ⟨outer,stages⟩ := makeDirectories_join (Path.isStep_of_valid valid)
  rw [openIn_of_valid valid,if_neg missing,stages,
    bind_of_error (ensureDirectories_of_error failed (by simpa using other))]

theorem openIn_of_long (valid : Name.isValid name = true)
    (long : tree.locate (parent.join (Path.ofText name)) = .error .invalidFilename) :
    openIn parent name tree = .error (.io .invalidFilename) tree := by
  refine openIn_of_refused valid ?_ (by simp [makeDirectory,long,bind,Except.bind]) (by simp)
  rw [isDirectory_iff,long]
  rintro ⟨_,⟨⟩,-⟩

theorem openIn_of_file {bytes : ByteArray} (valid : Name.isValid name = true)
    (located : tree.locate (parent.join (Path.ofText name)) = .ok place)
    (taken : tree.node? place = some (.file bytes)) :
    openIn parent name tree = .error (.io .alreadyExists) tree := by
  refine openIn_of_refused valid ?_ (by simp [makeDirectory,located,taken,bind,Except.bind]) (by simp)
  rw [isDirectory_iff,located]
  rintro ⟨_,⟨⟩,directory⟩
  rw [taken] at directory
  cases directory

/-- A database that was opened at a path, and the place of its directory, which is not the root. -/
structure OpenedAt (db : Database) (path : Path) (tree : FileTree) (home : Location) : Prop where
  opened : openAt path tree = .ok db tree
  located : tree.locate path = .ok home
  inner : home ≠ []

/-- A name for a new database beside a place: there is room for it, and nothing there is called so. -/
structure FreeBeside (tree : FileTree) (home : Location) (name : String) : Prop where
  valid : Name.isValid name = true
  short : name.utf8ByteSize ≤ maxNameBytes
  absent : tree.node? (name :: home.tail) = none

/-- A directory has been made in a place: nothing else has changed, and the path leads where it led. -/
structure MadeIn (tree after : FileTree) (path : Path) (home outer : Location) (name : String) : Prop where
  made : after.node? (name :: outer) = some .directory
  others : ∀ place, place ≠ name :: outer → after.node? place = tree.node? place
  handle : after.find path = .ok (home,.directory)

/-- A directory has been made beside the place that the path leads to, and nothing in that place has
changed. -/
structure MadeBeside (tree after : FileTree) (path : Path) (home : Location) (name : String) : Prop
    extends MadeIn tree after path home home.tail name where
  inside : ∀ place, home <:+ place → after.node? place = tree.node? place

theorem OpenedAt.root (here : OpenedAt db path tree home) :
    db.root = path ∧ tree.find path = .ok (home,.directory) := by
  have opened := here.opened
  rw [openAt,bind_of_ok get_run] at opened
  split at opened
  · next directory =>
    cases opened
    obtain ⟨place,located,node⟩ := isDirectory_iff.mp directory
    rw [here.located] at located
    cases located
    exact ⟨rfl,find_eq_ok.mpr ⟨here.located,node⟩⟩
  · cases opened

theorem madeIn_put (found : tree.find path = .ok (home,.directory))
    (absent : tree.node? (name :: outer) = none) :
    MadeIn tree (tree.put (name :: outer) .directory) path home outer name := by
  obtain ⟨located,directory⟩ := find_eq_ok.mp found
  have free : tree.node? (name :: outer) ≠ some .directory := by simp [absent]
  have others : ∀ place, place ≠ name :: outer →
      (tree.put (name :: outer) .directory).node? place = tree.node? place :=
    fun _ apart => node?_put_other tree _ apart
  refine ⟨node?_put_same tree _ (List.cons_ne_nil _ _),others,find_eq_ok.mpr ⟨?_,?_⟩⟩
  · exact (keepsDirectories_put _ _ free).locate located
  · rw [others home (fun same => free (same ▸ directory)),directory]

theorem OpenedAt.madeBeside (here : OpenedAt db path tree home) (new : FreeBeside tree home name)
    (made : MadeIn tree after path home home.tail name) : MadeBeside tree after path home name := by
  refine ⟨made,fun place below => made.others place ?_⟩
  rintro rfl
  -- the place and the one beside it have as many names, so they would be the same
  have length : home.length = (name :: home.tail).length := by
    obtain ⟨first,outer,rfl⟩ := List.exists_cons_of_ne_nil here.inner
    simp
  have absent := new.absent
  rw [← below.eq_of_length length,(find_eq_ok.mp here.root.2).2] at absent
  cases absent

/-- A directory in a place is not one beside it. -/
theorem not_madeBeside_of_madeIn (inner : home ≠ []) (new : FreeBeside tree home name)
    (below : home <:+ outer) (made : MadeIn tree after path home outer name) :
    ¬MadeBeside tree after path home name := by
  intro beside
  have longer : home.tail.length < outer.length := by
    have positive := List.length_pos_iff.mpr inner
    have length := below.length_le
    rw [List.length_tail]
    omega
  have apart : name :: home.tail ≠ name :: outer := by
    intro same
    rw [(List.cons.inj same).2] at longer
    exact Nat.lt_irrefl _ longer
  have node := made.others _ apart
  rw [beside.made,new.absent] at node
  cases node

/-! ### The statement on an open database -/

/-- What is said of a new database. -/
def created (name : String) : Answer := .message ("Created database: " ++ name)

theorem query_createDatabase
    (parsed : Statement.parse (Statement.createDatabase name) = .ok (.useDatabase name)) :
    db.query (Statement.createDatabase name) tree =
      (openIn db.root.around name >>= fun _ => pure (created name)) tree := by
  have read : require (Statement.parse (Statement.createDatabase name)) tree =
      .ok (.useDatabase name) tree := require_eq_ok.mpr ⟨parsed,rfl⟩
  rw [query,bind_of_ok read]
  rfl

/-- Where the path of a new database leads. -/
theorem locate_new (around : Around tree path home kept outer) (new : FreeBeside tree home name) :
    tree.locate (path.beside name) =
      if (path.beside name).text.utf8ByteSize ≤ maxPathBytes then .ok (name :: outer)
      else .error .invalidFilename := by
  have step := Path.isStep_of_valid new.valid
  rw [Path.beside_eq step around.around around.opened,locate_last step around.base around.directory]
  simp only [new.short,true_and]

/-- The statement makes a directory of that name in a place, or finds it there. It fails if a file is
called so. -/
def CreatesIn (db : Database) (path : Path) (tree : FileTree) (home outer : Location) (name : String) :
    Prop :=
  match tree.node? (name :: outer) with
  | none => ∃ after, db.query (Statement.createDatabase name) tree = .ok (created name) after ∧
      MadeIn tree after path home outer name
  | some .directory => db.query (Statement.createDatabase name) tree = .ok (created name) tree
  | some (.file _) =>
    db.query (Statement.createDatabase name) tree = .error (.io .alreadyExists) tree

/-- The statement makes a directory of that name beside the open database. -/
def CreatesBeside (db : Database) (path : Path) (tree : FileTree) (home : Location) (name : String) :
    Prop :=
  ∃ after, db.query (Statement.createDatabase name) tree = .ok (created name) after ∧
    MadeBeside tree after path home name

/-- The path without its last step leads into the open database, and the statement makes a directory of
that name there. -/
def CreatesInside (db : Database) (path : Path) (tree : FileTree) (home : Location) (name : String) :
    Prop :=
  ∃ outer, tree.base path.around = .ok outer ∧ home <:+ outer ∧ CreatesIn db path tree home outer name

section Statement

variable (here : OpenedAt db path tree home) (new : FreeBeside tree home name)

include here new

theorem createsIn (around : Around tree path home kept outer) (free : Token.isReserved name.toList = false)
    (room : (path.beside name).text.utf8ByteSize ≤ maxPathBytes) :
    CreatesIn db path tree home outer name := by
  obtain ⟨rfl,found⟩ := here.root
  have located := locate_new around new
  rw [if_pos room] at located
  have asked := @query_createDatabase tree name db (Statement.parse_createDatabase new.valid free)
  unfold CreatesIn
  split
  · next absent =>
    exact ⟨_,asked.trans (bind_of_ok (openIn_of_absent new.valid located absent)),
      madeIn_put found absent⟩
  · next taken => exact asked.trans (bind_of_ok (openIn_of_directory new.valid located taken))
  · next taken => exact asked.trans (bind_of_error (openIn_of_file new.valid located taken))

theorem createsBeside (ends : path.fileName? ≠ none) (free : Token.isReserved name.toList = false)
    (room : (path.beside name).text.utf8ByteSize ≤ maxPathBytes) :
    CreatesBeside db path tree home name := by
  obtain ⟨kept,outer,around⟩ := exists_around here.located here.inner
  have creates := createsIn here new around free room
  obtain rfl := around.named ends
  rw [CreatesIn,new.absent] at creates
  obtain ⟨after,asked,made⟩ := creates
  exact ⟨after,asked,here.madeBeside new made⟩

theorem createsInside (ends : path.fileName? = none) (free : Token.isReserved name.toList = false)
    (room : (path.beside name).text.utf8ByteSize ≤ maxPathBytes) :
    CreatesInside db path tree home name := by
  obtain ⟨kept,outer,around⟩ := exists_around here.located here.inner
  exact ⟨outer,around.around ▸ around.base,around.unnamed ends,createsIn here new around free room⟩

theorem query_of_long (free : Token.isReserved name.toList = false)
    (long : maxPathBytes < (path.beside name).text.utf8ByteSize) :
    ∃ fault, db.query (Statement.createDatabase name) tree = .error fault tree := by
  obtain ⟨kept,outer,around⟩ := exists_around here.located here.inner
  obtain ⟨rfl,-⟩ := here.root
  have located := locate_new around new
  rw [if_neg (Nat.not_le.mpr long)] at located
  exact ⟨_,(query_createDatabase (Statement.parse_createDatabase new.valid free)).trans
    (bind_of_error (openIn_of_long new.valid located))⟩

end Statement

theorem query_of_reserved (valid : Name.isValid name = true)
    (reserved : Token.isReserved name.toList = true) :
    ∃ fault, db.query (Statement.createDatabase name) tree = .error fault tree := by
  cases parsed : Statement.parse (Statement.createDatabase name) with
  | ok statement => exact absurd parsed (Statement.parse_createDatabase_ne_ok valid reserved)
  | error fault => exact ⟨fault,bind_of_error (by rw [parsed]; rfl)⟩

theorem not_createsBeside_of_error (failed : ∃ fault,
    db.query (Statement.createDatabase name) tree = .error fault tree) :
    ¬CreatesBeside db path tree home name := by
  rintro ⟨after,done,-⟩
  obtain ⟨fault,run⟩ := failed
  rw [run] at done
  cases done

theorem not_createsBeside_of_inside (inner : home ≠ []) (new : FreeBeside tree home name)
    (inside : CreatesInside db path tree home name) : ¬CreatesBeside db path tree home name := by
  rintro ⟨after,done,beside⟩
  obtain ⟨outer,-,below,creates⟩ := inside
  unfold CreatesIn at creates
  split at creates
  · obtain ⟨_,asked,made⟩ := creates
    rw [asked] at done
    cases done
    exact not_madeBeside_of_madeIn inner new below made beside
  · rw [creates] at done
    cases done
    have made := beside.made
    rw [new.absent] at made
    cases made
  · rw [creates] at done
    cases done

/-- A statement that makes a database makes it beside the open one if and only if the path ends in a name,
the name of the database is not a reserved word and its path is not too long. If the path ends elsewhere the
database is made inside of the open one, and if the name or the path is refused nothing is changed. -/
theorem created_beside_iff (here : OpenedAt db path tree home) (new : FreeBeside tree home name) :
    (CreatesBeside db path tree home name ↔ path.fileName? ≠ none ∧
      Token.isReserved name.toList = false ∧ (path.beside name).text.utf8ByteSize ≤ maxPathBytes) ∧
    (path.fileName? = none → Token.isReserved name.toList = false →
      (path.beside name).text.utf8ByteSize ≤ maxPathBytes → CreatesInside db path tree home name) ∧
    (Token.isReserved name.toList = true ∨ maxPathBytes < (path.beside name).text.utf8ByteSize →
      ∃ fault, db.query (Statement.createDatabase name) tree = .error fault tree) := by
  have refused : Token.isReserved name.toList = true ∨
      maxPathBytes < (path.beside name).text.utf8ByteSize →
        ∃ fault, db.query (Statement.createDatabase name) tree = .error fault tree := by
    intro refused
    cases reserved : Token.isReserved name.toList with
    | true => exact query_of_reserved new.valid reserved
    | false => exact query_of_long here new reserved (refused.resolve_left (by simp [reserved]))
  refine ⟨⟨fun beside => ?_,fun ⟨ends,free,room⟩ => createsBeside here new ends free room⟩,
    createsInside here new,refused⟩
  have free : Token.isReserved name.toList = false := by
    by_contra reserved
    exact not_createsBeside_of_error (refused (.inl (by simpa using reserved))) beside
  have room : (path.beside name).text.utf8ByteSize ≤ maxPathBytes := by
    by_contra long
    exact not_createsBeside_of_error (refused (.inr (Nat.not_le.mp long))) beside
  refine ⟨fun ends => ?_,free,room⟩
  exact not_createsBeside_of_inside here.inner new (createsInside here new ends free room) beside

/-! ### Paths that end in a name, and others -/

/-- A directory in another one. -/
def nested : FileTree :=
  ⟨[(["b","a","work"],.directory),(["a","work"],.directory),(["work"],.directory)],["work"]⟩

theorem OpenedAt.of_locate (located : tree.locate path = .ok home) (inner : home ≠ [])
    (directory : tree.node? home = some .directory) :
    OpenedAt ⟨path.fileName?.getD "",path⟩ path tree home := by
  refine ⟨?_,located,inner⟩
  rw [openAt,bind_of_ok get_run,if_pos (isDirectory_iff.mpr ⟨home,located,directory⟩)]
  rfl

/-- A path that ends in a name after steps in every direction, and one that ends upwards: there the new
directory is made two levels below the place beside the open one. -/
theorem nested_beside :
    let path := Path.ofText "./a//../a/.//b/./"
    let upwards := Path.ofText "a/b/.."
    CreatesBeside ⟨"b",path⟩ path nested ["b","a","work"] "été" ∧
      ¬CreatesBeside ⟨"",upwards⟩ upwards nested ["a","work"] "n" ∧
      ∃ after, Database.query ⟨"",upwards⟩ "CREATE DATABASE n;" nested = .ok (created "n") after ∧
        after.node? ["n","b","a","work"] = some .directory ∧ after.node? ["n","work"] = none := by
  intro path upwards
  have first : OpenedAt ⟨"b",path⟩ path nested ["b","a","work"] :=
    .of_locate (by decide +kernel : nested.locate path = _) (by simp) rfl
  have accented : FreeBeside nested ["b","a","work"] "été" := ⟨by decide +kernel,by decide,rfl⟩
  have second : OpenedAt ⟨"",upwards⟩ upwards nested ["a","work"] :=
    .of_locate (by decide +kernel : nested.locate upwards = _) (by simp) rfl
  have plain : FreeBeside nested ["a","work"] "n" := ⟨by decide +kernel,by decide,rfl⟩
  have ends : upwards.fileName? = none := by decide +kernel
  refine ⟨(created_beside_iff first accented).1.mpr (by decide +kernel),fun beside => ?_,?_⟩
  · exact ((created_beside_iff second plain).1.mp beside).1 ends
  · obtain ⟨outer,led,-,creates⟩ :=
      (created_beside_iff second plain).2.1 ends (by decide +kernel) (by decide +kernel)
    have before : nested.base upwards.around = .ok ["b","a","work"] := by decide +kernel
    rw [before] at led
    cases led
    obtain ⟨after,asked,made⟩ := creates
    exact ⟨after,asked,made.made,made.others ["n","work"] (by simp)⟩

end Database
end PlainTables
