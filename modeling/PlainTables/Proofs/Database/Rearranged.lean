import PlainTables.Proofs.Database.Written

/-! Insertions with their columns in another order. The order decides which fault is met first, but
neither whether there is one nor what is written. Main statement: an insertion and its rearrangement
succeed on the same files, and then they count the same rows and leave the same files. -/
namespace PlainTables

open Actions

/-- The members of a list at some places, in the order of the places. -/
def rearranged {α : Type} (order : List Nat) (l : List α) : List α := order.filterMap (l[·]?)

section Lists

variable {α β : Type} {order : List Nat}

theorem rearranged_range (l : List α) : rearranged (List.range l.length) l = l := by
  induction l with
  | nil => rfl
  | cons a l ih =>
    rw [rearranged,List.length_cons,List.range_succ_eq_map,List.filterMap_cons,List.filterMap_map]
    exact congrArg (a :: ·) ih

theorem perm_rearranged {l : List α} (whole : order.Perm (List.range l.length)) :
    (rearranged order l).Perm l := by
  have same := whole.filterMap (l[·]?)
  rwa [← rearranged,← rearranged,rearranged_range] at same

theorem rearranged_zip {first : List α} {later : List β} (same : later.length = first.length)
    (order : List Nat) :
    rearranged order (first.zip later) = (rearranged order first).zip (rearranged order later) := by
  induction order with
  | nil => rfl
  | cons i order ih =>
    simp only [rearranged,List.filterMap_cons] at ih ⊢
    cases found : (first.zip later)[i]? with
    | some pair =>
      obtain ⟨here,there⟩ := List.getElem?_zip_eq_some.mp found
      simp only [here,there,ih,List.zip_cons_cons]
    | none =>
      have beyond : first.length ≤ i := by simpa [same] using List.getElem?_eq_none_iff.mp found
      rw [List.getElem?_eq_none beyond,List.getElem?_eq_none (Nat.le_trans (Nat.le_of_eq same) beyond)]
      exact ih

/-- Of pairs with different keys at most one is found. -/
theorem lookup_perm {pairs others : List (String × String)} (same : pairs.Perm others)
    (distinct : (pairs.map Prod.fst).Nodup) (key : String) : pairs.lookup key = others.lookup key := by
  induction same with
  | nil => rfl
  | cons pair _ ih =>
    rw [List.lookup_cons,List.lookup_cons,ih (List.nodup_cons.mp distinct).2]
  | swap first second later =>
    have apart : second.1 ≠ first.1 := by
      intro equal
      simp [equal] at distinct
    rw [List.lookup_cons,List.lookup_cons,List.lookup_cons,List.lookup_cons]
    by_cases here : key = first.1
    · have there : (key == second.1) = false := beq_false_of_ne (here ▸ apart.symm)
      rw [there]
    · rw [beq_false_of_ne here]
  | trans one _ ih later =>
    rw [ih distinct,later ((one.map Prod.fst).nodup_iff.mp distinct)]

end Lists

namespace Header

variable {header : Header} {fields : List String} {order : List Nat}

theorem checkFields_perm {others : List String} (same : fields.Perm others) :
    header.checkFields [] fields = .ok () ↔ header.checkFields [] others = .ok () := by
  rw [checkFields_eq_ok,checkFields_eq_ok,same.nodup_iff]
  simp only [same.mem_iff]

/-- The value of a column stands at the place of its field in both orders. -/
theorem aligned_rearranged (distinct : fields.Nodup) {values : List String}
    (fits : values.length = fields.length) (whole : order.Perm (List.range fields.length)) :
    header.aligned (rearranged order fields) (rearranged order values) =
      header.aligned fields values := by
  have pairs : (rearranged order (fields.zip values)).Perm (fields.zip values) :=
    perm_rearranged (by rwa [List.length_zip,fits,Nat.min_self])
  have keys : ((fields.zip values).map Prod.fst).Nodup := by
    rwa [List.map_fst_zip (Nat.le_of_eq fits.symm)]
  rw [aligned,aligned,← rearranged_zip fits]
  apply List.map_congr_left
  intro column _
  rw [lookup_perm pairs.symm keys]

theorem checkInserted_rearranged {format : TableFormat} {rows : List Row}
    (fits : ∀ row ∈ rows, row.length = fields.length)
    (whole : order.Perm (List.range fields.length)) :
    header.checkInserted format (rearranged order fields) (rows.map (rearranged order)) = .ok () ↔
      header.checkInserted format fields rows = .ok () := by
  rw [checkInserted_eq_ok,checkInserted_eq_ok,checkFields_perm (perm_rearranged whole),
    List.forall_mem_map]
  refine and_congr_right fun _ => forall₂_congr fun row member => ?_
  have same : (rearranged order row).Perm row := perm_rearranged (by rwa [fits row member])
  simp only [same.mem_iff]

end Header

namespace Database

variable {db : Database} {format : TableFormat} {name : String} {tree after : FileTree}
  {fields : List String} {rows : List Row} {order : List Nat} {n : Nat}

theorem insert_rearranged_eq_ok (fits : ∀ row ∈ rows, row.length = fields.length)
    (whole : order.Perm (List.range fields.length)) :
    db.insert format name (rearranged order fields) (rows.map (rearranged order)) tree = .ok n after ↔
      db.insert format name fields rows tree = .ok n after := by
  have others : ∀ row ∈ rows.map (rearranged order), row.length = (rearranged order fields).length := by
    rw [List.forall_mem_map,(perm_rearranged whole).length_eq]
    intro row member
    rw [(perm_rearranged (by rwa [fits row member])).length_eq,fits row member]
  rw [insert_eq_ok_iff,insert_eq_ok_iff]
  refine and_congr (iff_of_true others fits) (exists_congr fun table => exists_congr fun text =>
    exists_congr fun place => and_congr_right fun _ => and_congr_right fun _ => ?_)
  rw [Header.checkInserted_rearranged fits whole,List.length_map,List.map_map]
  refine and_congr_right fun checked => ?_
  obtain ⟨distinct,-,-⟩ := Header.checkFields_eq_ok.mp (Header.checkInserted_eq_ok.mp checked).1
  have same : rows.map (table.header.aligned (rearranged order fields) ∘ rearranged order) =
      rows.map (table.header.aligned fields) :=
    List.map_congr_left fun row member => Header.aligned_rearranged distinct (fits row member) whole
  simp only [same,List.map_eq_nil_iff]

/-- When the fields and the values of every row are rearranged in the same way, an insertion counts the
same rows and leaves the same bytes; or both ways are refused and leave the files as they are. -/
theorem insert_in_any_order (db : Database) (format : TableFormat) (name : String) (tree : FileTree)
    (fields : List String) (rows : List Row) (fits : ∀ row ∈ rows, row.length = fields.length)
    (order : List Nat) (whole : order.Perm (List.range fields.length)) :
    (∃ n after, db.insert format name fields rows tree = .ok n after ∧
      db.insert format name (rearranged order fields) (rows.map (rearranged order)) tree =
        .ok n after) ∨
    ∃ fault other, db.insert format name fields rows tree = .error fault tree ∧
      db.insert format name (rearranged order fields) (rows.map (rearranged order)) tree =
        .error other tree := by
  cases here : db.insert format name fields rows tree with
  | ok n after => exact .inl ⟨n,after,rfl,(insert_rearranged_eq_ok fits whole).mpr here⟩
  | error fault after =>
    have kept := insert_allOrNothing db format name fields rows _ _ _ here
    cases there : db.insert format name (rearranged order fields) (rows.map (rearranged order)) tree with
    | ok n other =>
      rw [insert_rearranged_eq_ok fits whole,here] at there
      cases there
    | error cause other =>
      have left := insert_allOrNothing db format name _ _ _ _ _ there
      exact .inr ⟨fault,cause,by rw [kept],by rw [left]⟩

/-- A table whose last line is not closed, and its database. -/
def unclosed : FileTree :=
  ⟨[(["t.csv","work"],.file "a,b,c,d\n1,2,3,4".toUTF8),(["work"],.directory)],["work"]⟩

theorem unclosed_in_any_order :
    let db : Database := ⟨"work",Path.ofText "."⟩
    (∀ row ∈ [["x","y","z"],["\"","","é"]],row.length = ["c","a","d"].length) ∧
      [2,0,1].Perm (List.range ["c","a","d"].length) ∧ ∃ after,
        db.insert .comma "t" ["c","a","d"] [["x","y","z"],["\"","","é"]] unclosed = .ok 2 after ∧
        db.insert .comma "t" ["d","c","a"] [["z","x","y"],["é","\"",""]] unclosed = .ok 2 after := by
  intro db
  have fits : ∀ row ∈ [["x","y","z"],["\"","","é"]],row.length = ["c","a","d"].length := by decide
  have whole : [2,0,1].Perm (List.range ["c","a","d"].length) := by decide
  refine ⟨fits,whole,?_⟩
  have counted : outcome (db.insert .comma "t" ["c","a","d"] [["x","y","z"],["\"","","é"]] unclosed) =
      .ok 2 := by decide +kernel
  rcases insert_in_any_order db .comma "t" unclosed _ _ fits _ whole with
    ⟨n,after,here,there⟩ | ⟨fault,other,refused,-⟩
  · rw [here] at counted
    cases counted
    exact ⟨after,here,there⟩
  · rw [refused] at counted
    cases counted

end Database
end PlainTables
