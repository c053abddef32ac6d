import PlainTables.Proofs.Token.Front
import PlainTables.Text.Trim

/-! Scans that succeed, as derivations: one step for each front. Where the text is cut, and
that blanks at its ends are left out, changes nothing in the steps that remain. -/
namespace PlainTables.Token

open Unicode (isBlank)

variable {c : Char} {u x rest text after : List Char} {w : Nat} {t : Token} {ts us : List Token}

/-- Every quote that a scan of the text opens is closed. -/
def quotesClosed : List Char → Bool
  | [] => true
  | c :: rest =>
    closes c rest &&
      match front c rest with
      | .token _ width | .skipped width => quotesClosed (rest.drop width)
      | .unexpected | .openComment => true
termination_by text => text.length
decreasing_by all_goals simp only [List.length_drop,List.length_cons]; omega

/-- A text that is scanned to some tokens. The end of the input is not among them. -/
inductive Scans : List Char → List Token → Prop where
  | done : Scans [] []
  | step {c : Char} {rest : List Char} {w : Nat} {ts : List Token} :
      (front c rest).width? = some w → Scans (rest.drop w) ts →
      Scans (c :: rest) ((front c rest).tokens ++ ts)

/-- A text that is scanned to some lexemes, its first character counted as the given one. -/
inductive Placed : Nat → List Char → List Lexeme → Prop where
  | done {position : Nat} : Placed position [] [⟨.endOfInput,position⟩]
  | step {position : Nat} {c : Char} {rest : List Char} {w : Nat} {later : List Lexeme} :
      (front c rest).width? = some w → Placed (position + w + 1) (rest.drop w) later →
      Placed position (c :: rest) ((front c rest).tokens.map (⟨·,position⟩) ++ later)

/-- A text whose front is scanned to some tokens, with every quote in it closed, and what is left. -/
inductive Leads : List Char → List Token → List Char → Prop where
  | refl {text : List Char} : Leads text [] text
  | step {c : Char} {rest after : List Char} {w : Nat} {ts : List Token} :
      (front c rest).width? = some w → closes c rest = true → Leads (rest.drop w) ts after →
      Leads (c :: rest) ((front c rest).tokens ++ ts) after

/-- A text that is scanned to some tokens, with every quote in it closed. -/
abbrev Reads (text : List Char) (ts : List Token) : Prop := Leads text ts []

theorem Leads.trans (leads : Leads text ts after) {rest : List Char} (more : Leads after us rest) :
    Leads text (ts ++ us) rest := by
  induction leads with
  | refl => exact more
  | step ends closed _ ih =>
    rw [List.append_assoc]
    exact .step ends closed (ih more)

theorem Leads.scans (leads : Leads text ts after) (scans : Scans after us) :
    Scans text (ts ++ us) := by
  induction leads with
  | refl => exact scans
  | step ends _ _ ih =>
    rw [List.append_assoc]
    exact .step ends (ih scans)

theorem Reads.scans (reads : Reads text ts) : Scans text ts := by
  have whole := Leads.scans reads .done
  rwa [List.append_nil] at whole

/-! ### Scans and derivations -/

theorem scanFrom_step (position : Nat) (ends : (front c rest).width? = some w) :
    scanFrom position (c :: rest) = (scanFrom (position + w + 1) (rest.drop w)).map
      ((front c rest).tokens.map (⟨·,position⟩) ++ ·) := by
  rw [scanFrom.eq_def]
  cases here : front c rest <;> simp only [here,Front.width?,reduceCtorEq] at ends <;> cases ends <;>
    simp only [here]
  · rfl
  · cases scanFrom (position + w + 1) (rest.drop w) <;> rfl

theorem map_token_placed (position : Nat) (tokens : List Token) :
    (tokens.map fun t => (⟨t,position⟩ : Lexeme)).map Lexeme.token = tokens := by
  rw [List.map_map]
  exact List.map_id tokens

theorem scanFrom_stuck {position : Nat} {lexemes : List Lexeme} (stuck : (front c rest).width? = none) :
    scanFrom position (c :: rest) ≠ .ok lexemes := by
  rw [scanFrom.eq_def]
  cases here : front c rest <;> simp_all [Front.width?]

theorem quotesClosed_step (ends : (front c rest).width? = some w) :
    quotesClosed (c :: rest) = (closes c rest && quotesClosed (rest.drop w)) := by
  rw [quotesClosed.eq_def]
  cases here : front c rest <;> simp_all [Front.width?]

theorem placed_of_scanFrom {position : Nat} {lexemes : List Lexeme}
    (scanned : scanFrom position text = .ok lexemes) : Placed position text lexemes := by
  generalize size : text.length = n
  induction n using Nat.strongRecOn generalizing text position lexemes with
  | ind n ih =>
    cases text with
    | nil =>
      rw [scanFrom.eq_def] at scanned
      cases scanned
      exact .done
    | cons c rest =>
      cases ends : (front c rest).width? with
      | none => exact absurd scanned (scanFrom_stuck ends)
      | some w =>
        rw [scanFrom_step position ends] at scanned
        cases later : scanFrom (position + w + 1) (rest.drop w) with
        | error cause => simp [later,Except.map] at scanned
        | ok found =>
          simp only [later,Except.map,Except.ok.injEq] at scanned
          have shorter : (rest.drop w).length < n := by
            rw [List.length_cons] at size
            rw [List.length_drop]
            omega
          rw [← scanned]
          exact .step ends (ih _ shorter later rfl)

theorem Placed.scans {position : Nat} {lexemes : List Lexeme} (placed : Placed position text lexemes) :
    ∃ ts, lexemes.map Lexeme.token = ts ++ [.endOfInput] ∧ Scans text ts := by
  induction placed with
  | done => exact ⟨[],rfl,.done⟩
  | step ends _ ih =>
    obtain ⟨ts,tokens,scans⟩ := ih
    refine ⟨_,?_,.step ends scans⟩
    rw [List.map_append,map_token_placed,tokens,List.append_assoc]

theorem scans_of_scanFrom {position : Nat} {lexemes : List Lexeme}
    (scanned : scanFrom position text = .ok lexemes) :
    ∃ ts, lexemes.map Lexeme.token = ts ++ [.endOfInput] ∧ Scans text ts :=
  (placed_of_scanFrom scanned).scans

theorem scans_of_tokens {text : String} {tokens : List Token}
    (scanned : Token.tokens text = .ok tokens) :
    tokens = tokens.dropLast ++ [.endOfInput] ∧ Scans text.toList tokens.dropLast := by
  cases found : scan text with
  | error cause => simp [Token.tokens,found,bind,Except.bind] at scanned
  | ok lexemes =>
    simp only [Token.tokens,found,bind,Except.bind,Except.ok.injEq] at scanned
    obtain ⟨ts,ends,scans⟩ := scans_of_scanFrom found
    rw [scanned] at ends
    rw [ends,List.dropLast_concat]
    exact ⟨rfl,scans⟩

theorem Scans.reads (scans : Scans text ts) (closed : quotesClosed text = true) : Reads text ts := by
  induction scans with
  | done => exact .refl
  | step ends _ ih =>
    rw [quotesClosed_step ends,Bool.and_eq_true] at closed
    exact .step ends closed.1 (ih closed.2)

/-- A text without open quotes is scanned to its tokens. -/
theorem reads_of_tokens {text : String} {tokens : List Token}
    (scanned : Token.tokens text = .ok tokens) (closed : quotesClosed text.toList = true) :
    tokens = tokens.dropLast ++ [.endOfInput] ∧ Reads text.toList tokens.dropLast := by
  obtain ⟨ends,scans⟩ := scans_of_tokens scanned
  exact ⟨ends,scans.reads closed⟩

theorem Scans.scanFrom (scans : Scans text ts) (position : Nat) :
    ∃ lexemes, Token.scanFrom position text = .ok lexemes ∧
      lexemes.map Lexeme.token = ts ++ [.endOfInput] := by
  induction scans generalizing position with
  | done => exact ⟨_,by rw [Token.scanFrom.eq_def],rfl⟩
  | step ends _ ih =>
    obtain ⟨later,scanned,tokens⟩ := ih _
    refine ⟨_,by rw [scanFrom_step position ends,scanned]; rfl,?_⟩
    rw [List.map_append,map_token_placed,tokens,List.append_assoc]

theorem Scans.tokens (scans : Scans text ts) :
    Token.tokens (String.ofList text) = .ok (ts ++ [.endOfInput]) := by
  obtain ⟨lexemes,scanned,tokens⟩ := scans.scanFrom 0
  simp [Token.tokens,scan,scanned,tokens,bind,Except.bind]

/-! ### Blanks at the ends -/

theorem front_blank (blank : isBlank c = true) : front c rest = .skipped 0 := by
  rw [front.eq_def,if_pos blank]

theorem Scans.of_blank (scans : Scans (c :: rest) ts) (blank : isBlank c = true) :
    Scans rest ts := by
  have skips : front c rest = .skipped 0 := front_blank blank
  cases scans with
  | step ends later =>
    rw [skips] at ends ⊢
    cases ends
    exact later

theorem Scans.trimStart (scans : Scans text ts) : Scans (Text.trimStart text) ts := by
  induction text with
  | nil => exact scans
  | cons c rest ih =>
    by_cases blank : isBlank c = true
    · rw [Text.trimStart,List.dropWhile_cons_of_pos blank]
      exact ih (scans.of_blank blank)
    · rw [Text.trimStart,List.dropWhile_cons_of_neg blank]
      exact scans

theorem Scans.of_blanks (scans : Scans text ts) (blanks : ∀ c ∈ text, isBlank c = true) :
    ts = [] := by
  induction text with
  | nil =>
    cases scans
    rfl
  | cons c rest ih =>
    exact ih (scans.of_blank (blanks c List.mem_cons_self)) fun d member =>
      blanks d (List.mem_cons_of_mem _ member)

theorem not_mem_of_blanks (blanks : ∀ c ∈ x, isBlank c = true) (full : isBlank c = false) :
    c ∉ x := by
  intro member
  rw [blanks c member] at full
  cases full

/-- Before blanks, a front ends where they begin at the latest, or it is the rest of a line. -/
theorem width_le_of_blanks (blanks : ∀ c ∈ x, isBlank c = true) (filled : x ≠ [])
    (ends : (front c (u ++ x)).width? = some w) (closed : closes c (u ++ x) = true) :
    w ≤ u.length ∨
      u.length < w ∧ c = '-' ∧ front c u = .skipped u.length ∧ front c (u ++ x) = .skipped w := by
  have bite := bite_front ends closed
  have stops := stops_of_blanks blanks
  generalize front c (u ++ x) = here at bite ends ⊢
  cases bite with
  | blank | semicolon =>
    cases ends
    exact .inl (Nat.zero_le _)
  | quoted quote read =>
    cases ends
    refine .inl (length_of_untilQuote read (not_mem_of_blanks blanks ?_))
    rcases quote with rfl | rfl <;> decide
  | line dash more =>
    cases ends
    rcases Nat.lt_or_ge u.length (lineLength (u ++ x)) with beyond | inside
    · have own : u.head? = some '-' :=
        (stops.head?_append (by decide) (by decide)).mp (by rw [more]; rfl)
      refine .inr ⟨beyond,dash,?_,rfl⟩
      rw [dash,front_dash,if_pos own,lineLength_of_lt beyond]
    · exact .inl inside
  | block slash more read =>
    cases ends
    have own : u.head? = some '*' :=
      (stops.head?_append (by decide) (by decide)).mp (by rw [more]; rfl)
    obtain ⟨v,rfl⟩ := List.head?_eq_some_iff.mp own
    obtain ⟨-,same⟩ := List.cons.inj more
    rw [← same] at read
    exact .inl (Nat.succ_le_succ (length_of_blockLength read (not_mem_of_blanks blanks (by decide))))
  | solid _ _ _ _ _ solid _ =>
    cases ends
    refine .inl (Nat.le_of_not_lt fun beyond => ?_)
    obtain ⟨d,more,rfl⟩ := List.exists_cons_of_ne_nil filled
    have member : d ∈ (u ++ d :: more).take w := by
      rw [List.take_append,List.mem_append]
      refine .inr (List.mem_take_iff_getElem.mpr ⟨0,?_,rfl⟩)
      simp only [List.length_cons]
      omega
    have full := solid d member
    simp [isSolid,blanks d List.mem_cons_self] at full

/-- A quote that is left open is left open without the blanks at the end, and has the same value. -/
theorem front_open_of_append_blanks (blanks : ∀ c ∈ x, isBlank c = true)
    (opened : closes c (u ++ x) = false) (ends : (front c (u ++ x)).width? = some w) :
    front c u = front c (u ++ x) ∧ w ≤ u.length := by
  obtain ⟨quote,left⟩ := closes_eq_false.mp opened
  have plain := (stops_of_blanks blanks).not_quote quote
  have value : (u ++ x).takeWhile (fun d => !isSeparator d) =
      u.takeWhile (fun d => !isSeparator d) := by
    apply takeWhile_append_stops
    intro d first
    simp [isSeparator,blanks d (List.mem_of_mem_head? first)]
  have same : front c u = front c (u ++ x) := by
    rw [front_open quote left value,front_open quote (untilQuote_eq_none_of_append left plain) rfl]
  rw [← same] at ends
  exact ⟨same,width_le_length ends⟩

/-- The rest of a line at the end of a text. -/
theorem Scans.of_rest_of_line (own : front c u = .skipped u.length) : Scans (c :: u) [] := by
  have line : Scans (c :: u) ((front c u).tokens ++ []) := by
    refine .step (w := u.length) (by rw [own]; rfl) ?_
    rw [List.drop_length]
    exact .done
  rwa [own] at line

theorem Scans.of_append_blanks (scans : Scans (u ++ x) ts) (blanks : ∀ c ∈ x, isBlank c = true) :
    Scans u ts := by
  by_cases filled : x = []
  · rw [filled,List.append_nil] at scans
    exact scans
  generalize size : u.length = n
  induction n using Nat.strongRecOn generalizing u ts with
  | ind n ih =>
    cases u with
    | nil =>
      rw [scans.of_blanks blanks]
      exact .done
    | cons c u =>
      have stops := stops_of_blanks blanks
      rw [List.cons_append] at scans
      cases scans with
      | @step _ _ w later ends scans =>
        have inside : front c u = front c (u ++ x) ∧ w ≤ u.length →
            Scans (c :: u) ((front c (u ++ x)).tokens ++ later) := by
          rintro ⟨same,inside⟩
          rw [List.drop_append_of_le_length inside] at scans
          rw [← same] at ends ⊢
          refine .step ends (ih _ ?_ scans rfl)
          rw [List.length_cons] at size
          rw [List.length_drop]
          omega
        cases closed : closes c (u ++ x) with
        | false => exact inside (front_open_of_append_blanks blanks closed ends)
        | true =>
          rcases width_le_of_blanks blanks filled ends closed with short | ⟨beyond,dash,own,whole⟩
          · have same := front_append ends short (fun _ _ short => lineLength_append short filled)
              stops.breaks begins_nil (by simp) closed
            rw [List.append_nil] at same
            exact inside ⟨same,short⟩
          · have empty : later = [] := by
              refine scans.of_blanks fun d member => blanks d ?_
              rw [List.drop_append,List.drop_eq_nil_of_le (by omega),List.nil_append] at member
              exact List.mem_of_mem_drop member
            rw [whole,empty]
            exact .of_rest_of_line own

theorem Scans.trim (scans : Scans text ts) : Scans (Text.trim text) ts := by
  obtain ⟨blanks,split,all⟩ := Text.trimEnd_append (Text.trimStart text)
  have started := scans.trimStart
  rw [split] at started
  exact started.of_append_blanks all

end PlainTables.Token
