import PlainTables.Proofs.Filter.Condition
import PlainTables.Proofs.Statement.Phrase
import PlainTables.Statement.Form

/-! The grammar of statements. A token list is read as a statement exactly if it spells that
statement and ends right after it with one semicolon. -/
namespace PlainTables.Statement

open Actions Phrase
open Token (value?)

/-- Tokens that spell the condition of a SELECT, which may be left out. -/
inductive Wheres : List Token → Filter → Prop where
  | none : Wheres [] .everything
  | some {condition : List Token} {filter : Filter} : filter.Spells condition →
      Wheres (.keyword .where :: condition) filter

/-- Tokens that spell a statement, up to its semicolon. -/
inductive Spells : List Token → Statement → Prop where
  | listTables : Spells [.keyword .show,.keyword .tables] .listTables
  | useDatabase {verb : Keyword} {t : Token} {name : String} : verb = .create ∨ verb = .use →
      value? t = some name → Name.isValid name = true →
      Spells [.keyword verb,.keyword .database,t] (.useDatabase name)
  | dropTable {t : Token} {name : String} : value? t = some name → Name.isValid name = true →
      Spells [.keyword .drop,.keyword .table,t] (.dropTable name)
  | createTable {t : Token} {name : String} {words : List Token} {columns : List String} :
      value? t = some name → Name.isValid name = true → IsTuple words columns →
      (∀ column ∈ columns, Name.isValid column = true) →
      Spells (.keyword .create :: .keyword .table :: t :: words) (.createTable name columns)
  | insert {t : Token} {name : String} {words first later : List Token} {fields row : List String}
      {rows : List (List String)} : value? t = some name → Name.isValid name = true →
      IsTuple words fields → IsTuple first row → LaterTuples later rows →
      Spells (.keyword .insert :: .keyword .into :: t ::
        (words ++ .keyword .values :: (first ++ later))) (.insert name fields (row :: rows))
  | read {t : Token} {name : String} {words condition : List Token} {fields : List String}
      {filter : Filter} : Lists field? words fields → value? t = some name →
      Name.isValid name = true → Wheres condition filter →
      Spells (.keyword .select :: (words ++ .keyword .from :: t :: condition))
        (.read name fields filter)
  | readOrdered {t : Token} {name : String} {words condition order : List Token}
      {fields : List String} {filter : Filter} {key : SortKey} : Lists field? words fields →
      value? t = some name → Name.isValid name = true → Wheres condition filter →
      Orders order key → key.column ≠ "" →
      Spells (.keyword .select :: (words ++ .keyword .from :: t :: (condition ++ order)))
        (.readOrdered name fields filter key)
  | update {t : Token} {name : String} {words condition : List Token}
      {assigned : List Assignment} {filter : Filter} : value? t = some name →
      Name.isValid name = true → Assigns words (assigned.map fun a => (a.column,.eq,a.value)) →
      filter.Spells condition →
      Spells (.keyword .update :: .keyword .table :: t :: .keyword .set ::
        (words ++ .keyword .where :: condition)) (.update name assigned filter)
  | delete {t : Token} {name : String} {condition : List Token} {filter : Filter} :
      value? t = some name → Name.isValid name = true → filter.Spells condition →
      Spells (.keyword .delete :: .keyword .from :: t :: .keyword .where :: condition)
        (.delete name filter)

/-- A whole token list that spells a statement. -/
def IsSpelled (tokens : List Token) (statement : Statement) : Prop :=
  ∃ words, Spells words statement ∧ tokens = words ++ ending

/-- The form a statement is written in. -/
def form : Statement → Form
  | .listTables => .listTables
  | .useDatabase _ => .useDatabase
  | .dropTable _ => .dropTable
  | .createTable _ _ => .createTable
  | .insert _ _ _ => .insert
  | .read _ _ filter => if filter.isEmpty then .read else .readWhere
  | .readOrdered _ _ filter _ => if filter.isEmpty then .readOrdered else .readWhereOrdered
  | .update _ _ _ => .update
  | .delete _ _ => .delete

variable {tokens words after : List Token} {statement : Statement} {filter : Filter}

/-! ### Every form reads what is spelled -/

theorem valid_of_check {role : NameRole} {name : String} {β : Type} {f : Unit → Except Fault β}
    {b : β} (passed : (Name.check role name >>= f) = .ok b) :
    Name.isValid name = true ∧ f () = .ok b := by
  obtain ⟨_,checked,later⟩ := check_eq_ok.mp passed
  exact ⟨Name.check_eq_ok_iff.mp checked,later⟩

theorem spelled_of_listTables (read : Form.listTables? tokens = some (.ok statement)) :
    IsSpelled tokens statement ∧ statement.form = .listTables := by
  unfold Form.listTables? at read
  split at read
  · split at read
    · next ends =>
      cases read
      exact ⟨⟨_,.listTables,by rw [ends]; rfl⟩,rfl⟩
    · cases read
  · cases read

theorem spelled_of_useDatabase (read : Form.useDatabase? tokens = some (.ok statement)) :
    IsSpelled tokens statement ∧ statement.form = .useDatabase := by
  unfold Form.useDatabase? at read
  split at read
  · split at read
    · next opens =>
      obtain ⟨name,value,made⟩ := Option.map_eq_some_iff.mp read
      obtain ⟨valid,returned⟩ := valid_of_check made
      cases returned
      exact ⟨⟨_,.useDatabase opens.1 value valid,by rw [opens.2]; rfl⟩,rfl⟩
    · cases read
  · cases read

theorem spelled_of_dropTable (read : Form.dropTable? tokens = some (.ok statement)) :
    IsSpelled tokens statement ∧ statement.form = .dropTable := by
  unfold Form.dropTable? at read
  split at read
  · split at read
    · next ends =>
      obtain ⟨name,value,made⟩ := Option.map_eq_some_iff.mp read
      obtain ⟨valid,returned⟩ := valid_of_check made
      cases returned
      exact ⟨⟨_,.dropTable value valid,by rw [ends]; rfl⟩,rfl⟩
    · cases read
  · cases read

theorem spelled_of_read (read : Form.read? tokens = some (.ok statement)) :
    IsSpelled tokens statement ∧ statement.form = .read := by
  unfold Form.read? at read
  split at read
  · next head =>
    split at read
    · next ends =>
      obtain ⟨valid,returned⟩ := valid_of_check (Option.some_inj.mp read)
      cases returned
      obtain ⟨words,t,lists,value,rfl⟩ := selectHead_eq_some.mp head
      exact ⟨⟨_,.read lists value valid .none,by simp [ends]⟩,rfl⟩
    · cases read
  · cases read

/-- What the two ordered forms have in common. -/
theorem spelled_of_ordered {fields : List String} {name : String} {leading : List Token}
    {key : SortKey} (head : selectHead tokens = some (fields,name,leading ++ after))
    (wheres : Wheres leading filter) (order : sortKey after = some key)
    (made : Form.ordered name fields filter key = .ok statement) : IsSpelled tokens statement ∧
      statement.form = if filter.isEmpty then .readOrdered else .readWhereOrdered := by
  obtain ⟨valid,later⟩ := valid_of_check made
  split at later
  · cases later
  · next named =>
    cases later
    obtain ⟨words,t,lists,value,rfl⟩ := selectHead_eq_some.mp head
    obtain ⟨orders,spelled,rfl⟩ := orders_of_sortKey order named
    exact ⟨⟨_,.readOrdered lists value valid wheres spelled named,by simp⟩,rfl⟩

theorem spelled_of_readOrdered (read : Form.readOrdered? tokens = some (.ok statement)) :
    IsSpelled tokens statement ∧ statement.form = .readOrdered := by
  unfold Form.readOrdered? at read
  split at read
  · next head =>
    obtain ⟨key,order,made⟩ := Option.map_eq_some_iff.mp read
    exact spelled_of_ordered head .none order made
  · cases read

theorem spelled_of_readWhereOrdered (read : Form.readWhereOrdered? tokens = some (.ok statement)) :
    IsSpelled tokens statement ∧ statement.form = .readWhereOrdered := by
  unfold Form.readWhereOrdered? at read
  split at read
  · next fields name rest head =>
    obtain ⟨condition,after,cuts⟩ : ∃ condition after,
        upTo (fun t => t = .keyword .order || t = .semicolon) rest = (condition,after) := ⟨_,_,rfl⟩
    simp only [cuts] at read
    obtain ⟨key,order,made⟩ := Option.map_eq_some_iff.mp read
    obtain ⟨filter,found,later⟩ := check_eq_ok.mp made
    obtain ⟨rfl,-⟩ := of_upTo cuts
    have spelled := Filter.ofTokens_eq_ok_iff.mp found
    simpa [spelled.filled] using spelled_of_ordered head (.some spelled) order later
  · cases read

theorem spelled_of_readWhere (read : Form.readWhere? tokens = some (.ok statement)) :
    IsSpelled tokens statement ∧ statement.form = .readWhere := by
  unfold Form.readWhere? at read
  split at read
  · next head =>
    obtain ⟨condition,last,made⟩ := Option.map_eq_some_iff.mp read
    obtain ⟨valid,later⟩ := valid_of_check made
    obtain ⟨filter,found,returned⟩ := check_eq_ok.mp later
    cases returned
    obtain ⟨words,t,lists,value,rfl⟩ := selectHead_eq_some.mp head
    obtain ⟨rfl,-⟩ := lastCondition_eq_some.mp last
    have spelled := Filter.ofTokens_eq_ok_iff.mp found
    exact ⟨⟨_,.read lists value valid (.some spelled),by simp⟩,by simp [form,spelled.filled]⟩
  · cases read

theorem plainAssignment_eq_ok {written : String × Comparator × String} {a : Assignment} :
    Form.plainAssignment written = .ok a ↔ written = (a.column,.eq,a.value) := by
  obtain ⟨column,symbol,value⟩ := written
  obtain ⟨column',value'⟩ := a
  by_cases plain : symbol = .eq <;> simp [Form.plainAssignment,plain]

theorem plainAssignments_eq_ok {written : List (String × Comparator × String)}
    {assigned : List Assignment} : written.mapM Form.plainAssignment = .ok assigned ↔
      written = assigned.map fun a => (a.column,.eq,a.value) := by
  simp only [mapM_eq_ok,plainAssignment_eq_ok]
  rw [← List.forall₂_eq_eq_eq,List.forall₂_map_right_iff]

theorem spelled_of_update (read : Form.update? tokens = some (.ok statement)) :
    IsSpelled tokens statement ∧ statement.form = .update := by
  unfold Form.update? at read
  split at read
  · split at read
    · next value found =>
      obtain ⟨condition,last,made⟩ := Option.map_eq_some_iff.mp read
      obtain ⟨valid,later⟩ := valid_of_check made
      obtain ⟨assigned,plain,later⟩ := check_eq_ok.mp later
      obtain ⟨filter,condition,returned⟩ := check_eq_ok.mp later
      cases returned
      obtain ⟨words,spelled,rfl,-⟩ := assignments_eq_some.mp found
      obtain ⟨rfl,-⟩ := lastCondition_eq_some.mp last
      rw [plainAssignments_eq_ok.mp plain] at spelled
      exact ⟨⟨_,.update value valid spelled (Filter.ofTokens_eq_ok_iff.mp condition),by simp⟩,rfl⟩
    · cases read
  · cases read

theorem spelled_of_createTable (read : Form.createTable? tokens = some (.ok statement)) :
    IsSpelled tokens statement ∧ statement.form = .createTable := by
  unfold Form.createTable? at read
  split at read
  · split at read
    · next value found =>
      split at read
      · next ends =>
        obtain ⟨valid,later⟩ := valid_of_check (Option.some_inj.mp read)
        obtain ⟨_,checked,returned⟩ := check_eq_ok.mp later
        cases returned
        obtain ⟨words,spelled,rfl⟩ := tuple_eq_some.mp found
        refine ⟨⟨_,.createTable value valid spelled fun column member => ?_,by simp [ends]⟩,rfl⟩
        exact Name.check_eq_ok_iff.mp (forM_eq_ok.mp checked column member)
      · cases read
    · cases read
  · cases read

theorem spelled_of_insert (read : Form.insert? tokens = some (.ok statement)) :
    IsSpelled tokens statement ∧ statement.form = .insert := by
  unfold Form.insert? at read
  split at read
  · split at read
    · next value found =>
      split at read
      · next first =>
        split at read
        · next later =>
          split at read
          · next ends =>
            obtain ⟨valid,returned⟩ := valid_of_check (Option.some_inj.mp read)
            cases returned
            obtain ⟨words,spelled,rfl⟩ := tuple_eq_some.mp found
            obtain ⟨firstWords,firstSpelled,rfl⟩ := tuple_eq_some.mp first
            obtain ⟨laterWords,laterSpelled,rfl,-⟩ := laterTuples_eq_some.mp later
            exact ⟨⟨_,.insert value valid spelled firstSpelled laterSpelled,by simp [ends]⟩,rfl⟩
          · cases read
        · cases read
      · cases read
    · cases read
  · cases read

theorem spelled_of_delete (read : Form.delete? tokens = some (.ok statement)) :
    IsSpelled tokens statement ∧ statement.form = .delete := by
  unfold Form.delete? at read
  split at read
  · split at read
    · next value last =>
      obtain ⟨valid,later⟩ := valid_of_check (Option.some_inj.mp read)
      obtain ⟨filter,condition,returned⟩ := check_eq_ok.mp later
      cases returned
      obtain ⟨rfl,-⟩ := lastCondition_eq_some.mp last
      exact ⟨⟨_,.delete value valid (Filter.ofTokens_eq_ok_iff.mp condition),by simp⟩,rfl⟩
    · cases read
  · cases read

/-- A form reads only statements of its own, and only where they are spelled. -/
theorem spelled_of_form {form : Form} (read : form.statement? tokens = some (.ok statement)) :
    IsSpelled tokens statement ∧ statement.form = form := by
  cases form with
  | listTables => exact spelled_of_listTables read
  | useDatabase => exact spelled_of_useDatabase read
  | dropTable => exact spelled_of_dropTable read
  | read => exact spelled_of_read read
  | readOrdered => exact spelled_of_readOrdered read
  | readWhereOrdered => exact spelled_of_readWhereOrdered read
  | readWhere => exact spelled_of_readWhere read
  | update => exact spelled_of_update read
  | createTable => exact spelled_of_createTable read
  | insert => exact spelled_of_insert read
  | delete => exact spelled_of_delete read

/-! ### Whatever is spelled is read -/

theorem check_of_valid {role : NameRole} {name : String} (valid : Name.isValid name = true) :
    Name.check role name = .ok () :=
  Name.check_eq_ok_iff.mpr valid

theorem firstOf_of_quiet {forms : List Form} (form : Form) {result : Except Fault Statement}
    (member : form ∈ forms)
    (quiet : ∀ other ∈ forms.takeWhile (· ≠ form), other.statement? tokens = none)
    (applies : form.statement? tokens = some result) : firstOf forms tokens = some result := by
  induction forms with
  | nil => cases member
  | cons other forms ih =>
    by_cases same : other = form
    · rw [firstOf,List.findSome?_cons,same,applies]
    · rw [List.takeWhile_cons_of_pos (by simpa using same),List.forall_mem_cons] at quiet
      rw [firstOf,List.findSome?_cons,quiet.1]
      exact ih (List.mem_of_ne_of_mem (Ne.symm same) member) quiet.2

theorem lastCondition_of_spells {condition : List Token} (spelled : filter.Spells condition) :
    lastCondition (condition ++ ending) = some condition :=
  lastCondition_eq_some.mpr ⟨rfl,fun t member => (spelled.inside t member).2⟩

theorem orders_ne_ending {order : List Token} {key : SortKey} (spelled : Orders order key) :
    order ++ ending ≠ ending := by
  cases spelled <;> simp [ending]

theorem where_ne_ending : .keyword .where :: after ≠ ending := by
  simp [ending]

theorem sortKey_where : sortKey (.keyword .where :: after) = none := rfl

/-- The forms before those of a SELECT do not apply to one. -/
theorem quiet_of_selectHead {head : List String × String × List Token}
    (found : selectHead tokens = some head) :
    ∀ other ∈ [Form.listTables,Form.useDatabase,Form.dropTable], other.statement? tokens = none := by
  obtain ⟨fields,name,after⟩ := head
  obtain ⟨words,t,-,-,rfl⟩ := selectHead_eq_some.mp found
  have use : Form.useDatabase? (.keyword .select :: (words ++ .keyword .from :: t :: after)) = none := by
    unfold Form.useDatabase?
    split
    · next same =>
      rw [List.cons.injEq,Token.keyword.injEq] at same
      rw [← same.1]
      rfl
    · rfl
  simp only [List.forall_mem_cons]
  exact ⟨rfl,use,rfl,by simp⟩

theorem firstOf_read {fields : List String} {name : String} {condition : List Token}
    (head : selectHead tokens = some (fields,name,condition ++ ending))
    (valid : Name.isValid name = true) (wheres : Wheres condition filter) :
    firstOf Form.all tokens = some (.ok (.read name fields filter)) := by
  have before := quiet_of_selectHead head
  cases wheres with
  | none =>
    refine firstOf_of_quiet .read (by decide) before ?_
    simp [Form.statement?,Form.read?,head,check_of_valid valid,bind,Except.bind]
  | @some condition _ spelled =>
    have cuts : upTo (fun t => t = .keyword .order || t = .semicolon) (condition ++ ending) =
        (condition,ending) := by
      refine upTo_append (fun t member => ?_) ⟨.semicolon,rfl,rfl⟩
      obtain ⟨order,semicolon,ends⟩ := spelled.inside t member
      simp [order,semicolon,ends]
    have unordered : sortKey ending = none := rfl
    have quiet : ∀ other ∈ [Form.read,Form.readOrdered,Form.readWhereOrdered],
        other.statement? tokens = none := by
      simp [Form.statement?,Form.read?,Form.readOrdered?,Form.readWhereOrdered?,head,cuts,unordered,
        where_ne_ending,sortKey_where]
    refine firstOf_of_quiet .readWhere (by decide) (List.forall_mem_append.mpr ⟨before,quiet⟩) ?_
    have found := Filter.ofTokens_eq_ok_iff.mpr spelled
    simp [Form.statement?,Form.readWhere?,head,lastCondition_of_spells spelled,
      check_of_valid valid,found,bind,Except.bind]

theorem firstOf_readOrdered {fields : List String} {name : String} {condition order : List Token}
    {key : SortKey} (head : selectHead tokens = some (fields,name,condition ++ (order ++ ending)))
    (valid : Name.isValid name = true) (wheres : Wheres condition filter)
    (spelled : Orders order key) (named : key.column ≠ "") :
    firstOf Form.all tokens = some (.ok (.readOrdered name fields filter key)) := by
  have before := quiet_of_selectHead head
  have sorted := sortKey_of_orders spelled
  have made : Form.ordered name fields filter key = .ok (.readOrdered name fields filter key) := by
    simp [Form.ordered,check_of_valid valid,named,bind,Except.bind]
  cases wheres with
  | none =>
    have quiet : ∀ other ∈ [Form.read], other.statement? tokens = none := by
      simp [Form.statement?,Form.read?,head,orders_ne_ending spelled]
    refine firstOf_of_quiet .readOrdered (by decide) (List.forall_mem_append.mpr ⟨before,quiet⟩) ?_
    simp [Form.statement?,Form.readOrdered?,head,sorted,made]
  | @some condition _ condSpelled =>
    have cuts : upTo (fun t => t = .keyword .order || t = .semicolon)
        (condition ++ (order ++ ending)) = (condition,order ++ ending) := by
      refine upTo_append (fun t member => ?_) ⟨.keyword .order,?_,rfl⟩
      · obtain ⟨order,semicolon,ends⟩ := condSpelled.inside t member
        simp [order,semicolon,ends]
      · cases spelled <;> rfl
    have quiet : ∀ other ∈ [Form.read,Form.readOrdered], other.statement? tokens = none := by
      simp [Form.statement?,Form.read?,Form.readOrdered?,head,where_ne_ending,sortKey_where]
    refine firstOf_of_quiet .readWhereOrdered (by decide) (List.forall_mem_append.mpr ⟨before,quiet⟩) ?_
    have found := Filter.ofTokens_eq_ok_iff.mpr condSpelled
    simp [Form.statement?,Form.readWhereOrdered?,head,cuts,sorted,found,made,bind,Except.bind]

theorem firstOf_spelled (spelled : Spells words statement) :
    firstOf Form.all (words ++ ending) = some (.ok statement) := by
  cases spelled with
  | listTables => rfl
  | @useDatabase verb t name opens value valid =>
    refine firstOf_of_quiet .useDatabase (by decide) ?_ ?_
    · intro other member
      rcases opens with rfl | rfl <;> cases other <;> first | rfl | exact absurd member (by decide)
    · simp [Form.statement?,Form.useDatabase?,opens,value,check_of_valid valid,bind,Except.bind]
  | dropTable value valid =>
    refine firstOf_of_quiet .dropTable (by decide) ?_ ?_
    · intro other member
      cases other <;> first | rfl | exact absurd member (by decide)
    · simp [Form.statement?,Form.dropTable?,value,check_of_valid valid,bind,Except.bind]
  | @createTable t name words columns value valid tuple checked =>
    refine firstOf_of_quiet .createTable (by decide) ?_ ?_
    · intro other member
      cases other <;> first | rfl | exact absurd member (by decide)
    · have found : Phrase.tuple (words ++ ending) = some (columns,ending) :=
        tuple_eq_some.mpr ⟨_,tuple,rfl⟩
      have passed : columns.forM (Name.check .column) = .ok () :=
        forM_eq_ok.mpr fun column member => check_of_valid (checked column member)
      simp [Form.statement?,Form.createTable?,found,passed,value,check_of_valid valid,bind,Except.bind]
  | @insert t name words first later fields row rows value valid tuple firstTuple laterTuples =>
    refine firstOf_of_quiet .insert (by decide) ?_ ?_
    · intro other member
      cases other <;> first | rfl | exact absurd member (by decide)
    · have found : Phrase.tuple (words ++ .keyword .values :: (first ++ (later ++ ending))) =
          some (fields,.keyword .values :: (first ++ (later ++ ending))) :=
        tuple_eq_some.mpr ⟨_,tuple,rfl⟩
      have foundFirst : Phrase.tuple (first ++ (later ++ ending)) = some (row,later ++ ending) :=
        tuple_eq_some.mpr ⟨_,firstTuple,rfl⟩
      have foundLater : Phrase.laterTuples (later ++ ending) = some (rows,ending) :=
        laterTuples_eq_some.mpr ⟨_,laterTuples,rfl,rfl⟩
      simp [Form.statement?,Form.insert?,found,foundFirst,foundLater,value,check_of_valid valid,
        bind,Except.bind]
  | @read t name words condition fields filter lists value valid wheres =>
    exact firstOf_read (selectHead_eq_some.mpr ⟨words,t,lists,value,by simp⟩) valid wheres
  | @readOrdered t name words condition order fields filter key lists value valid wheres spelled named =>
    exact firstOf_readOrdered (selectHead_eq_some.mpr ⟨words,t,lists,value,by simp⟩) valid wheres
      spelled named
  | @update t name words condition assigned filter value valid assigns spelled =>
    refine firstOf_of_quiet .update (by decide) ?_ ?_
    · intro other member
      cases other <;> first | rfl | exact absurd member (by decide)
    · have found : assignments (words ++ .keyword .where :: (condition ++ ending)) =
          some (_,.keyword .where :: (condition ++ ending)) :=
        assignments_eq_some.mpr ⟨_,assigns,rfl,by simp⟩
      have plain := plainAssignments_eq_ok.mpr (rfl : assigned.map _ = _)
      have read := Filter.ofTokens_eq_ok_iff.mpr spelled
      simp [Form.statement?,Form.update?,found,lastCondition_of_spells spelled,plain,read,value,
        check_of_valid valid,bind,Except.bind]
  | @delete t name condition filter value valid spelled =>
    refine firstOf_of_quiet .delete (by decide) ?_ ?_
    · intro other member
      cases other <;> first | rfl | exact absurd member (by decide)
    · have read := Filter.ofTokens_eq_ok_iff.mpr spelled
      simp [Form.statement?,Form.delete?,lastCondition_of_spells spelled,read,value,
        check_of_valid valid,bind,Except.bind]

theorem firstOf_eq_ok : firstOf Form.all tokens = some (.ok statement) ↔
    IsSpelled tokens statement := by
  constructor
  · intro first
    obtain ⟨form,-,read⟩ := List.exists_of_findSome?_eq_some first
    exact (spelled_of_form read).1
  · rintro ⟨words,spelled,rfl⟩
    exact firstOf_spelled spelled

/-- A text is read as a statement exactly if its tokens spell it. -/
theorem parse_eq_ok {text : String} : parse text = .ok statement ↔
    ∃ tokens, Token.tokens text = .ok tokens ∧ IsSpelled tokens statement := by
  unfold parse
  cases Token.tokens text with
  | error cause => simp
  | ok tokens =>
    simp only [Except.ok.injEq,exists_eq_left',← firstOf_eq_ok,ofTokens]
    cases firstOf Form.all tokens <;> simp

end PlainTables.Statement
