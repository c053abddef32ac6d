import PlainTables.Proofs.Script.Sentences
import PlainTables.Workspace

/-! Scripts that are put together from texts of one statement each. Main statement: the texts with a
line feed between neighbours are cut into one piece for each text, and each piece is read as the
statement of its text, as long as no quote is left open before a further text. -/
namespace PlainTables

namespace Token

variable {c : Char} {u rest text after : List Char} {w : Nat} {ts us : List Token}

/-! ### Texts before a line feed -/

/-- Before a line feed a front is as it is before the end, or it is the rest of a line and takes the
line feed with it. -/
theorem front_before_line_feed (rest : List Char) (ends : (front c u).width? = some w)
    (closed : closes c u = true) :
    (front c (u ++ '\n' :: rest) = front c u ∧ closes c (u ++ '\n' :: rest) = true) ∨
      c = '-' ∧ front c u = .skipped u.length ∧
        front c (u ++ '\n' :: rest) = .skipped (u.length + 1) := by
  have stops : Stops ('\n' :: rest) := by simp [Begins,Unicode.isBlank]
  by_cases line : c = '-' ∧ u.head? = some '-' ∧ '\n' ∉ u
  · obtain ⟨rfl,dash,plain⟩ := line
    obtain ⟨own,whole⟩ := lineLength_of_not_mem plain rest
    have further : (u ++ '\n' :: rest).head? = some '-' :=
      (stops.head?_append (by decide) (by decide)).mpr dash
    refine .inr ⟨rfl,?_,?_⟩
    · rw [front_dash,if_pos dash,own]
    · rw [front_dash,if_pos further,whole]
  · have feed : c = '-' → u.head? = some '-' → lineLength (u ++ '\n' :: rest) = lineLength u := by
      intro dash more
      refine lineLength_append_of_mem ?_ _
      by_contra plain
      exact line ⟨dash,more,plain⟩
    exact .inl (front_before ends closed feed stops.breaks fun quote _ => stops.not_quote quote)

/-- A text is read before a line feed as it is read before the end. -/
theorem Leads.before_line_feed (leads : Leads u ts after) (finished : after = []) (rest : List Char) :
    Leads (u ++ '\n' :: rest) ts rest := by
  induction leads with
  | refl =>
    subst finished
    have here : front '\n' rest = .skipped 0 := front_blank (by decide)
    have ends : (front '\n' rest).width? = some 0 := by rw [here]; rfl
    have step := Leads.step ends rfl .refl
    rwa [here] at step
  | @step c u after w ts ends closed leads ih =>
    have inside := width_le ends closed
    rw [List.cons_append]
    rcases front_before_line_feed rest ends closed with ⟨same,closes⟩ | ⟨dash,own,whole⟩
    · rw [← same] at ends ⊢
      refine .step ends closes ?_
      rw [List.drop_append_of_le_length inside]
      exact ih finished
    · rw [own] at ends ⊢
      cases ends
      rw [List.drop_length] at leads
      cases leads
      have ends : (front c (u ++ '\n' :: rest)).width? = some (u.length + 1) := by rw [whole]; rfl
      have rests : (u ++ '\n' :: rest).drop (u.length + 1) = rest := by simp [← List.drop_drop]
      have step := Leads.step ends (by simp [closes,dash]) .refl
      rwa [whole,rests] at step

/-! ### Quotes that are left open -/

/-- The first quote that is left open, if there is one, stands before the first semicolon. -/
def opensBeforeSemicolon : List Char → Bool
  | [] => true
  | c :: rest =>
    !closes c rest ||
      match front c rest with
      | .token .semicolon width => quotesClosed (rest.drop width)
      | .token _ width | .skipped width => opensBeforeSemicolon (rest.drop width)
      | .unexpected | .openComment => true
termination_by text => text.length
decreasing_by all_goals simp only [List.length_drop,List.length_cons]; omega

theorem opensBeforeSemicolon_step (ends : (front c rest).width? = some w)
    (closed : closes c rest = true) (other : .semicolon ∉ (front c rest).tokens) :
    opensBeforeSemicolon (c :: rest) = opensBeforeSemicolon (rest.drop w) := by
  rw [opensBeforeSemicolon.eq_def]
  cases here : front c rest with
  | token t width =>
    rw [here] at ends other
    cases ends
    cases t <;> simp_all [Front.tokens]
  | skipped width =>
    rw [here] at ends
    cases ends
    simp [closed,here]
  | unexpected | openComment => simp [here,Front.width?] at ends

theorem quotesClosed_of_opensBeforeSemicolon {width : Nat}
    (here : front c rest = .token .semicolon width) (closed : closes c rest = true)
    (before : opensBeforeSemicolon (c :: rest) = true) : quotesClosed (rest.drop width) = true := by
  rw [opensBeforeSemicolon.eq_def] at before
  simpa [closed,here] using before

/-- Where a first quote is left open, no semicolon stands before it. -/
theorem leads_of_opensBeforeSemicolon (scans : Scans text ts)
    (before : opensBeforeSemicolon text = true) :
    Reads text ts ∨ ∃ first last c rest, Leads text first (c :: rest) ∧ closes c rest = false ∧
      Scans (c :: rest) last ∧ ts = first ++ last ∧ .semicolon ∉ first := by
  induction scans with
  | done => exact .inl .refl
  | @step c rest w ts ends scans ih =>
    cases closed : closes c rest with
    | false => exact .inr ⟨[],_,c,rest,.refl,closed,.step ends scans,rfl,by simp⟩
    | true =>
      by_cases semicolon : .semicolon ∈ (front c rest).tokens
      · obtain ⟨width,here⟩ : ∃ width, front c rest = .token .semicolon width := by
          cases here : front c rest <;> simp_all [Front.tokens]
        have later := quotesClosed_of_opensBeforeSemicolon here closed before
        have same : width = w := by simpa [here,Front.width?] using ends
        rw [same] at later
        exact .inl (.step ends closed (scans.reads later))
      · rw [opensBeforeSemicolon_step ends closed semicolon] at before
        rcases ih before with reads | ⟨first,last,d,more,leads,opened,behind,rfl,plain⟩
        · exact .inl (.step ends closed reads)
        · refine .inr ⟨_,last,d,more,.step ends closed leads,opened,behind,by simp,?_⟩
          simp [semicolon,plain]

end Token

namespace Script

open Token

variable {text : List Char}

/-- The tokens of a text that is read as a statement. -/
theorem scans_of_parse {text : String} {statement : Statement}
    (parsed : Statement.parse text = .ok statement) :
    ∃ words, Statement.Spells words statement ∧ Scans text.toList (words ++ [.semicolon]) := by
  obtain ⟨tokens,scanned,words,spelled,rfl⟩ := Statement.parse_eq_ok.mp parsed
  have scans := (scans_of_tokens scanned).2
  have whole : (words ++ Phrase.ending).dropLast = words ++ [.semicolon] := by simp [Phrase.ending]
  rw [whole] at scans
  exact ⟨words,spelled,scans⟩

theorem split_at_semicolon {first last behind : List Token} (fresh : .semicolon ∉ first)
    (whole : last ++ [.semicolon] = first ++ behind) :
    ∃ inner, last = first ++ inner ∧ behind = inner ++ [.semicolon] := by
  rcases List.append_eq_append_iff.mp whole with ⟨more,rfl,split⟩ | found
  · cases more with
    | nil => exact ⟨[],by simp,by simpa using split.symm⟩
    | cons t more =>
      obtain ⟨rfl,-⟩ := List.cons.inj split
      simp at fresh
  · exact found

/-- A single text, in which the first quote that is left open stands in the statement. -/
theorem leads_of_last {last : List Token} (scans : Scans text (last ++ [.semicolon]))
    (unread : .semicolon ∉ last) (before : opensBeforeSemicolon text = true) :
    ∃ ts us after, Leads text ts after ∧ Remains after us ∧ ts ++ us = last ++ [.semicolon] := by
  rcases leads_of_opensBeforeSemicolon scans before with
    reads | ⟨first,behind,c,rest,leads,opened,scans,whole,fresh⟩
  · exact ⟨_,_,_,reads,.none,by simp⟩
  · obtain ⟨inner,rfl,rfl⟩ := split_at_semicolon fresh whole
    simp only [List.mem_append,not_or] at unread
    exact ⟨_,_,_,leads,.opened opened scans unread.2,by simp⟩

theorem leads_of_joined {texts : List String} {script : List Statement}
    (parsed : texts.map Statement.parse = script.map .ok)
    (closed : ∀ text ∈ texts.dropLast, quotesClosed text.toList = true)
    (last : ∀ text ∈ texts.getLast?, opensBeforeSemicolon text.toList = true) :
    ∃ sentences ts us after, List.Forall₂ Statement.Spells sentences script ∧
      Leads ("\n".intercalate texts).toList ts after ∧ Remains after us ∧
      ts ++ us = closedBySemicolons sentences := by
  induction texts generalizing script with
  | nil =>
    obtain rfl : script = [] := by simpa using parsed
    exact ⟨[],[],[],[],.nil,.refl,.none,rfl⟩
  | cons text texts ih =>
    obtain ⟨statement,script,rfl,here,later⟩ := List.map_eq_cons_iff.mp parsed.symm
    obtain ⟨words,spelled,scans⟩ := scans_of_parse here.symm
    cases texts with
    | nil =>
      obtain rfl : script = [] := by simpa using later
      obtain ⟨ts,us,after,leads,remains,whole⟩ :=
        leads_of_last scans spelled.semicolon_not_mem (last text rfl)
      refine ⟨[words],ts,us,after,.cons spelled .nil,?_,remains,?_⟩
      · simpa using leads
      · simpa [closedBySemicolons] using whole
    | cons next texts =>
      have rest := ih later.symm (fun text member => closed text (by simp_all)) (by simpa using last)
      obtain ⟨sentences,ts,us,after,spells,leads,remains,whole⟩ := rest
      have reads := scans.reads (closed text (by simp))
      refine ⟨words :: sentences,words ++ [.semicolon] ++ ts,us,after,.cons spelled spells,?_,remains,?_⟩
      · have goes := (Leads.before_line_feed reads rfl _).trans leads
        simpa [List.intercalate_cons_cons] using goes
      · simpa [closedBySemicolons] using whole

/-- What running a text does, once it has been read. -/
def runParsed : Except Fault Statement → WorkspaceAction Answer
  | .ok statement => Workspace.run statement
  | .error fault => throw fault

theorem mapM_execute (texts : List String) :
    texts.mapM Workspace.execute = (texts.map Statement.parse).mapM runParsed := by
  rw [List.mapM_map]
  rfl

/-- Texts of one statement each make a script of these statements, which runs as the texts do one by
one, if each of them closes its quotes; in the last one a quote may be left open before the
semicolon. -/
theorem statements_joined (texts : List String) (script : List Statement)
    (parsed : texts.map Statement.parse = script.map .ok)
    (closed : ∀ text ∈ texts.dropLast, quotesClosed text.toList = true)
    (last : ∀ text ∈ texts.getLast?, opensBeforeSemicolon text.toList = true) :
    (statements ("\n".intercalate texts)).map Statement.parse = script.map .ok ∧
      Workspace.executeScript ("\n".intercalate texts) = texts.mapM Workspace.execute := by
  obtain ⟨sentences,ts,us,after,spells,leads,remains,whole⟩ := leads_of_joined parsed closed last
  have pieces := map_parse_of_leads spells leads remains whole
  refine ⟨pieces,?_⟩
  rw [Workspace.executeScript,mapM_execute,mapM_execute,pieces,parsed]

/-- Texts with a semicolon in a quoted text and in a comment, one that ends with the rest of a line,
and a last one with a quote that is left open. -/
def noted : List String := [
  "SELECT * FROM t WHERE a = 'x;\n''--'; -- it's done;",
  "/* '; */ DELETE FROM t WHERE b = \"'\";",
  "SELECT * FROM t WHERE a = 'Rome;"]

def notedScript : List Statement := [
  .read "t" ["*"] ⟨[⟨"a",.eq,"x;\n'--"⟩],[]⟩,
  .delete "t" ⟨[⟨"b",.eq,"'"⟩],[]⟩,
  .read "t" ["*"] ⟨[⟨"a",.eq,"Rome"⟩],[]⟩]

theorem noted_composed :
    noted.map Statement.parse = notedScript.map .ok ∧
      (∀ text ∈ noted.dropLast, quotesClosed text.toList = true) ∧
      (∀ text ∈ noted.getLast?, opensBeforeSemicolon text.toList = true) ∧
      (statements ("\n".intercalate noted)).map Statement.parse = notedScript.map .ok ∧
      Workspace.executeScript ("\n".intercalate noted) = noted.mapM Workspace.execute := by
  have parsed : noted.map Statement.parse = notedScript.map .ok := by decide +kernel
  have closed : ∀ text ∈ noted.dropLast, quotesClosed text.toList = true := by decide +kernel
  have last : ∀ text ∈ noted.getLast?, opensBeforeSemicolon text.toList = true := by decide +kernel
  exact ⟨parsed,closed,last,statements_joined noted notedScript parsed closed last⟩

/-- Two statements that leave a quote open: put together, the second quote closes the first. -/
def unclosed : List String := ["SELECT * FROM t WHERE a = 'x;","SELECT * FROM t WHERE a = 'y;"]

theorem unclosed_not_composed :
    ¬∀ (texts : List String) (script : List Statement),
      texts.map Statement.parse = script.map .ok →
        (statements ("\n".intercalate texts)).length = texts.length := by
  intro composed
  have parsed : unclosed.map Statement.parse =
      [.read "t" ["*"] ⟨[⟨"a",.eq,"x"⟩],[]⟩,.read "t" ["*"] ⟨[⟨"a",.eq,"y"⟩],[]⟩].map .ok := by
    decide +kernel
  have one : (statements ("\n".intercalate unclosed)).length = 1 := by decide +kernel
  have two := composed unclosed _ parsed
  rw [one] at two
  exact absurd two (by decide)

end Script
end PlainTables
