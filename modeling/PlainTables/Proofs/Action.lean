import Mathlib.Data.List.Forall2
import PlainTables.Files.Action

/-! How actions run. The lemmas on `>>=` take an action apart into its steps. An action that
only looks leaves the state as it was, and one that is all or nothing leaves it so whenever it
fails; checks that look, followed by one such change, are all or nothing together. -/
namespace PlainTables.Actions

section Bind

variable {ε σ α β : Type} {x : EStateM ε σ α} {f : α → EStateM ε σ β} {s t : σ}

theorem bind_eq_ok {b : β} :
    (x >>= f) s = .ok b t ↔ ∃ a u, x s = .ok a u ∧ f a u = .ok b t := by
  change EStateM.bind x f s = .ok b t ↔ _
  cases run : x s <;> simp [EStateM.bind,run,and_assoc]

theorem bind_eq_error {e : ε} :
    (x >>= f) s = .error e t ↔
      x s = .error e t ∨ ∃ a u, x s = .ok a u ∧ f a u = .error e t := by
  change EStateM.bind x f s = .error e t ↔ _
  cases run : x s <;> simp [EStateM.bind,run,and_assoc]

theorem bind_of_ok {a : α} (run : x s = .ok a t) : (x >>= f) s = f a t := by
  change EStateM.bind x f s = _
  simp [EStateM.bind,run]

theorem bind_of_error {e : ε} (run : x s = .error e t) : (x >>= f) s = .error e t := by
  change EStateM.bind x f s = _
  simp [EStateM.bind,run]

theorem tryCatch_of_ok {handler : ε → EStateM ε σ α} {a : α} (run : x s = .ok a t) :
    tryCatch x handler s = .ok a t := by
  change EStateM.tryCatch x handler s = _
  delta EStateM.tryCatch
  simp only [run]

theorem tryCatch_of_error {handler : ε → EStateM ε σ α} {e : ε} (run : x s = .error e t) :
    tryCatch x handler s = handler e t := by
  change EStateM.tryCatch x handler s = _
  delta EStateM.tryCatch
  simp only [run]
  rfl

/-- An answer that is made from what an action found says nothing more about the state. -/
theorem bind_pure_eq_ok {g : α → β} {b : β} :
    (x >>= fun a => pure (g a)) s = .ok b t ↔ ∃ a, x s = .ok a t ∧ g a = b := by
  rw [bind_eq_ok]
  constructor
  · rintro ⟨a,_,run,returned⟩
    cases returned
    exact ⟨a,run,rfl⟩
  · rintro ⟨a,run,rfl⟩
    exact ⟨a,t,run,rfl⟩

@[simp] theorem pure_run (a : α) : (pure a : EStateM ε σ α) s = .ok a s := rfl

@[simp] theorem throw_run (e : ε) : (throw e : EStateM ε σ α) s = .error e s := rfl

@[simp] theorem get_run : (get : EStateM ε σ σ) s = .ok s s := rfl

/-- An action that fails somewhere in a list has succeeded on everything before. -/
theorem mapM_eq_error {l : List α} {g : α → EStateM ε σ β} {e : ε}
    (failed : l.mapM g s = .error e t) :
    ∃ done bad later bs u, l = done ++ bad :: later ∧ done.mapM g s = .ok bs u ∧
      g bad u = .error e t := by
  induction l generalizing s with
  | nil =>
    rw [List.mapM_nil] at failed
    cases failed
  | cons a rest ih =>
    rw [List.mapM_cons] at failed
    rcases bind_eq_error.mp failed with first | ⟨b,u,ok,failed⟩
    · exact ⟨[],a,rest,[],s,rfl,by rw [List.mapM_nil]; rfl,first⟩
    rcases bind_eq_error.mp failed with failed | ⟨_,_,_,returned⟩
    · obtain ⟨done,bad,later,bs,v,split,run,last⟩ := ih failed
      refine ⟨a :: done,bad,later,b :: bs,v,by rw [split]; rfl,?_,last⟩
      rw [List.mapM_cons,bind_of_ok ok,bind_of_ok run]
      rfl
    · cases returned

theorem length_of_mapM_eq_ok {l : List α} {g : α → EStateM ε σ β} {bs : List β}
    (run : l.mapM g s = .ok bs t) : bs.length = l.length := by
  induction l generalizing s bs with
  | nil =>
    rw [List.mapM_nil] at run
    cases run
    rfl
  | cons a rest ih =>
    rw [List.mapM_cons] at run
    obtain ⟨b,u,-,run⟩ := bind_eq_ok.mp run
    obtain ⟨later,v,ran,returned⟩ := bind_eq_ok.mp run
    cases returned
    exact congrArg (· + 1) (ih ran)

end Bind

section Checks

variable {ε α β γ : Type} {x : Except ε α} {f : α → Except ε β}

theorem check_eq_ok {b : β} : (x >>= f) = .ok b ↔ ∃ a, x = .ok a ∧ f a = .ok b := by
  cases x <;> simp [bind,Except.bind]

theorem check_eq_error {e : ε} :
    (x >>= f) = .error e ↔ x = .error e ∨ ∃ a, x = .ok a ∧ f a = .error e := by
  cases x <;> simp [bind,Except.bind]

theorem map_bind (x : Except ε α) (g : α → β) (f : β → Except ε γ) :
    (x.map g >>= f) = (x >>= fun a => f (g a)) := by
  cases x <;> rfl

theorem bind_ok (x : Except ε α) (g : α → β) : (x >>= fun a => .ok (g a)) = x.map g := by
  cases x <;> rfl

theorem forM_cons (check : α → Except ε Unit) (a : α) (rest : List α) :
    (a :: rest).forM check = (check a >>= fun _ => rest.forM check) := rfl

/-- Where every item is computed from its own check, all are computed once all are checked. -/
theorem mapM_eq_forM {l : List α} {f : α → Except ε β} {check : α → Except ε Unit} {g : α → β}
    (each : ∀ a ∈ l, f a = (check a).map fun _ => g a) :
    l.mapM f = (l.forM check).map fun _ => l.map g := by
  induction l with
  | nil => rfl
  | cons a rest ih =>
    rw [List.mapM_cons,forM_cons,each a List.mem_cons_self,
      ih fun b member => each b (List.mem_cons_of_mem _ member)]
    cases check a with
    | error e => rfl
    | ok _ => cases rest.forM check <;> rfl

theorem mapM_eq_ok {g : α → Except ε β} {l : List α} {found : List β} :
    l.mapM g = .ok found ↔ List.Forall₂ (fun a b => g a = .ok b) l found := by
  induction l generalizing found with
  | nil => cases found <;> simp [List.mapM_nil,pure,Except.pure]
  | cons a rest ih =>
    rw [List.mapM_cons,check_eq_ok]
    constructor
    · rintro ⟨b,first,later⟩
      obtain ⟨bs,run,returned⟩ := check_eq_ok.mp later
      cases returned
      exact .cons first (ih.mp run)
    · intro all
      cases all with
      | cons first later => exact ⟨_,first,check_eq_ok.mpr ⟨_,ih.mpr later,rfl⟩⟩

/-- The first item that fails decides the fault of a list. -/
theorem mapM_eq_fault {g : α → Except ε β} {l : List α} {e : ε} :
    l.mapM g = .error e ↔ ∃ before a after, l = before ++ a :: after ∧
      (∀ b ∈ before, ∃ v, g b = .ok v) ∧ g a = .error e := by
  induction l with
  | nil => simp [List.mapM_nil,pure,Except.pure]
  | cons a rest ih =>
    rw [List.mapM_cons,check_eq_error]
    constructor
    · rintro (here | ⟨v,first,later⟩)
      · exact ⟨[],a,rest,rfl,by simp,here⟩
      · obtain failed | ⟨_,_,returned⟩ := check_eq_error.mp later
        · obtain ⟨before,b,after,rfl,passed,there⟩ := ih.mp failed
          exact ⟨a :: before,b,after,rfl,List.forall_mem_cons.mpr ⟨⟨v,first⟩,passed⟩,there⟩
        · cases returned
    · rintro ⟨before,b,after,split,passed,there⟩
      cases before with
      | nil =>
        cases split
        exact .inl there
      | cons first before =>
        cases split
        obtain ⟨⟨v,here⟩,passed⟩ := List.forall_mem_cons.mp passed
        exact .inr ⟨v,here,check_eq_error.mpr (.inl (ih.mpr ⟨before,b,after,rfl,passed,there⟩))⟩

theorem forM_eq_ok {l : List α} {check : α → Except ε Unit} :
    l.forM check = .ok () ↔ ∀ a ∈ l, check a = .ok () := by
  induction l with
  | nil => exact ⟨fun _ => by simp,fun _ => rfl⟩
  | cons a rest ih =>
    rw [forM_cons,check_eq_ok,List.forall_mem_cons,← ih]
    exact ⟨fun ⟨(),first,later⟩ => ⟨first,later⟩,fun ⟨first,later⟩ => ⟨(),first,later⟩⟩

theorem of_forM_eq_error {l : List α} {check : α → Except ε Unit} {e : ε}
    (failed : l.forM check = .error e) : ∃ a ∈ l, check a = .error e := by
  induction l with
  | nil => cases failed
  | cons a rest ih =>
    rcases check_eq_error.mp failed with here | ⟨_,_,later⟩
    · exact ⟨a,List.mem_cons_self,here⟩
    · obtain ⟨b,member,there⟩ := ih later
      exact ⟨b,List.mem_cons_of_mem _ member,there⟩

end Checks

/-! ### Actions that keep the state -/

section Keeping

variable {ε σ α β : Type}

/-- The state an outcome leaves. -/
def left : EStateM.Result ε σ α → σ
  | .ok _ s => s
  | .error _ s => s

/-- What an action says, without the state it leaves. -/
def outcome : EStateM.Result ε σ α → Except ε α
  | .ok a _ => .ok a
  | .error e _ => .error e

theorem eq_error_of_outcome {result : EStateM.Result ε σ α} {e : ε}
    (said : outcome result = .error e) : result = .error e (left result) := by
  cases result <;> simp_all [outcome,left]

theorem eq_ok_of_outcome {result : EStateM.Result ε σ α} {a : α}
    (said : outcome result = .ok a) : result = .ok a (left result) := by
  cases result <;> simp_all [outcome,left]

theorem left_bind (x : EStateM ε σ α) (f : α → EStateM ε σ β) (s : σ) :
    left ((x >>= f) s) = left (x s) ∨ ∃ a, left ((x >>= f) s) = left (f a (left (x s))) := by
  cases run : x s with
  | ok a t => exact .inr ⟨a,by rw [bind_of_ok run,left]⟩
  | error e t => exact .inl (by rw [bind_of_error run,left,left])

/-- An answer that is made from what an action found leaves the same state. -/
theorem left_bind_pure (x : EStateM ε σ α) (g : α → β) (s : σ) :
    left ((x >>= fun a => pure (g a)) s) = left (x s) := by
  cases run : x s with
  | ok a t => rw [bind_of_ok run]; rfl
  | error e t => rw [bind_of_error run]; rfl

/-- The state after the action is the state before it. -/
def LooksOnly (x : EStateM ε σ α) : Prop :=
  ∀ s, (∃ a, x s = .ok a s) ∨ ∃ e, x s = .error e s

/-- A failure leaves the state as it was. -/
def AllOrNothing (x : EStateM ε σ α) : Prop := ∀ s e t, x s = .error e t → t = s

theorem LooksOnly.of_ok {x : EStateM ε σ α} (looks : LooksOnly x) {s t : σ} {a : α}
    (run : x s = .ok a t) : t = s := by
  rcases looks s with ⟨b,same⟩ | ⟨e,same⟩ <;> rw [run] at same <;> cases same
  rfl

theorem LooksOnly.eq_ok {x : EStateM ε σ α} (looks : LooksOnly x) {s : σ} {a : α}
    (said : outcome (x s) = .ok a) : x s = .ok a s := by
  have run := eq_ok_of_outcome said
  rw [looks.of_ok run] at run
  exact run

theorem LooksOnly.allOrNothing {x : EStateM ε σ α} (looks : LooksOnly x) : AllOrNothing x := by
  intro s e t run
  rcases looks s with ⟨a,same⟩ | ⟨e',same⟩ <;> rw [run] at same <;> cases same
  rfl

theorem LooksOnly.pure (a : α) : LooksOnly (pure a : EStateM ε σ α) := fun _ => .inl ⟨a,rfl⟩

theorem LooksOnly.throw (e : ε) : LooksOnly (throw e : EStateM ε σ α) := fun _ => .inr ⟨e,rfl⟩

theorem LooksOnly.get : LooksOnly (get : EStateM ε σ σ) := fun s => .inl ⟨s,rfl⟩

theorem LooksOnly.bind {x : EStateM ε σ α} {f : α → EStateM ε σ β} (first : LooksOnly x)
    (next : ∀ a, LooksOnly (f a)) : LooksOnly (x >>= f) := by
  intro s
  rcases first s with ⟨a,run⟩ | ⟨e,run⟩
  · rw [bind_of_ok run]
    exact next a s
  · exact .inr ⟨e,bind_of_error run⟩

/-- What comes before the first change may only look. -/
theorem AllOrNothing.bind_of_looksOnly {x : EStateM ε σ α} {f : α → EStateM ε σ β}
    (first : LooksOnly x) (next : ∀ a, AllOrNothing (f a)) : AllOrNothing (x >>= f) := by
  intro s e t run
  rcases bind_eq_error.mp run with failed | ⟨a,u,ok,failed⟩
  · exact first.allOrNothing s e t failed
  · rw [first.of_ok ok] at failed
    exact next a s e t failed

/-- What comes after the last change may not fail. -/
theorem AllOrNothing.bind_pure {x : EStateM ε σ α} {f : α → β} (first : AllOrNothing x) :
    AllOrNothing (x >>= fun a => Pure.pure (f a)) := by
  intro s e t run
  rcases bind_eq_error.mp run with failed | ⟨a,u,_,failed⟩
  · exact first s e t failed
  · cases failed

end Keeping

/-! ### Actions on files -/

section Files

variable {α : Type} {tree after : FileTree} {fault : Fault}

open FileAction

theorem ask_looksOnly (look : FileTree → Except IoCause α) (f : IoCause → Fault) :
    LooksOnly (ask look f) := by
  intro tree
  cases seen : look tree with
  | ok a => exact .inl ⟨a,by simp [ask,seen]⟩
  | error cause => exact .inr ⟨f cause,by simp [ask,seen]⟩

theorem require_looksOnly (result : Except Fault α) : LooksOnly (require result) := by
  intro tree
  cases result with
  | ok a => exact .inl ⟨a,rfl⟩
  | error fault => exact .inr ⟨fault,rfl⟩

theorem change_allOrNothing (step : FileTree → Except IoCause FileTree) (f : IoCause → Fault) :
    AllOrNothing (change step f) := by
  intro tree e after run
  cases done : step tree with
  | ok changed => simp [change,done] at run
  | error cause =>
    simp only [change,done,EStateM.Result.error.injEq] at run
    exact run.2.symm

theorem ask_eq_ok {look : FileTree → Except IoCause α} {f : IoCause → Fault} {a : α} :
    ask look f tree = .ok a after ↔ look tree = .ok a ∧ after = tree := by
  cases seen : look tree <;> simp [ask,seen,eq_comm]

theorem require_eq_ok {result : Except Fault α} {a : α} :
    require result tree = .ok a after ↔ result = .ok a ∧ after = tree := by
  cases result <;> simp [require,eq_comm]

theorem change_eq_ok {step : FileTree → Except IoCause FileTree} {f : IoCause → Fault} {u : Unit} :
    change step f tree = .ok u after ↔ step tree = .ok after := by
  cases done : step tree <;> simp [change,done]

theorem change_eq_error {step : FileTree → Except IoCause FileTree} {f : IoCause → Fault} :
    change step f tree = .error fault after ↔
      ∃ cause, step tree = .error cause ∧ fault = f cause ∧ after = tree := by
  cases done : step tree <;> simp [change,done,eq_comm]

end Files

end PlainTables.Actions
