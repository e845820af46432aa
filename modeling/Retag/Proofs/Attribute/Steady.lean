import Retag.Proofs.Attribute.Grammar
import Retag.Proofs.Attribute.Views

/-! Lists that are read back from their text although they were edited. What a token is must not
depend on the token after it: a token that could run on is followed by white space, and only the
last token may be one that was left open. The tokens of any text are so, and every edit that puts
white space or closed values between tokens keeps them so. -/
namespace Retag

namespace Token
open Attribute (IsName IsWord Spacing)

inductive Formed : Token → Prop where
  | blank {run : Text} : run ≠ [] → (∀ c ∈ run, Text.isBlank c = true) → Formed (.blank run)
  | slash : Formed .slash
  | spread {body : Text} : Text.Balanced body →
      Formed (.attr { name := '{' :: body ++ ['}'], value := .boolean })
  | flag {name : Text} : IsName name → Formed (.attr { name, value := .boolean })
  | word {name text : Text} {spacing : Spacing} : IsName name → spacing.IsBlank → IsWord text →
      Formed (.attr { name, value := .bareWord text, spacing })
  | literal {name text : Text} {quote : Quote} {spacing : Spacing} : IsName name →
      spacing.IsBlank → Text.Quoted quote.char text →
      Formed (.attr { name, value := .literal quote text, spacing })
  | expression {name text : Text} {spacing : Spacing} : IsName name → spacing.IsBlank →
      Text.Balanced text → Formed (.attr { name, value := .expression text, spacing })

/-- Whether the token ends only at white space: a bare word, or a name without a value. -/
def runsOn : Token → Bool
  | .attr item =>
    match item.value with
    | .bareWord _ => true
    | .boolean => item.name.head? != some '{'
    | _ => false
  | _ => false

/-- A token that can stand before any other, as far as white space is kept in single runs. -/
def Firm (token : Token) : Prop := token.Formed ∧ token.runsOn = false

theorem runsOn_of_not_attribute {token : Token} (other : token.isAttribute = false) :
    token.runsOn = false := by
  cases token with
  | blank run | slash => rfl
  | attr item => cases other

theorem firm_space : space.Firm :=
  ⟨.blank (by simp) (List.all_eq_true.1 (by decide)), rfl⟩

end Token

namespace AttributeList
open Token (Formed Firm)
open Text (Clear clear_dropWhile)

/-- A token is read on its own from its text, whatever follows, if that does not lengthen it. -/
theorem ofText_formed {token : Token} {rest : Text} (formed : token.Formed)
    (blank : token.isBlank = true → Clear Text.isBlank rest)
    (ends : token.runsOn = true → Clear (fun c => !Text.isBlank c) rest ∧
      Clear (· == '=') (rest.dropWhile Text.isBlank)) :
    ofText (token.render ++ rest) = token :: ofText rest := by
  cases formed with
  | blank filled inside => exact ofText_blank filled inside (blank rfl)
  | slash => exact ofText_slash rest
  | @spread body balanced =>
    have text : Token.render (.attr { name := '{' :: body ++ ['}'], value := .boolean }) ++ rest =
        '{' :: body ++ '}' :: rest := by
      simp [Token.render, Attribute.render]
    rw [text, ofText_spread balanced]
  | @flag name named =>
    have notSpread : Token.runsOn (.attr { name, value := .boolean }) = true := by
      obtain ⟨c, cs, rfl, -, -, notOpen, -⟩ := named
      simpa [Token.runsOn] using notOpen
    exact ofText_flag named (ends notSpread).1 (ends notSpread).2
  | word named spacing word => exact ofText_word named spacing word (ends rfl).1
  | literal named spacing quoted => exact ofText_literal named spacing quoted
  | expression named spacing balanced => exact ofText_expression named spacing balanced

def Alone (token : Token) : Prop := ofText token.render = [token]

theorem alone_of_formed {token : Token} (formed : token.Formed) : Alone token := by
  have empty (p : Char → Bool) : Clear p [] := fun c first => by cases first
  have read : ofText (token.render ++ []) = token :: ofText [] :=
    ofText_formed formed (fun _ => empty _) fun _ => ⟨empty _, empty _⟩
  rwa [List.append_nil, ofText] at read

/-- What can be said of the first token that was read: it has nothing left open unless it took all
of the text, and then it is no literal; and if it runs on, white space follows. -/
structure Leads (token : Token) (rest : AttributeList) : Prop where
  formed : token.Formed ∨ rest = [] ∧ ∀ item, token = .attr item → item.value.isLiteral = false
  spaced : token.runsOn = true → Spaced rest

theorem ofText_nil : ofText [] = [] := by rw [ofText]

theorem leads_of_spread {item : Attribute} {rest : Text} (read : Attribute.ReadSpread item rest) :
    Leads (.attr item) (ofText rest) := by
  cases read with
  | closed balanced => exact ⟨.inl (.spread balanced), by simp [Token.runsOn]⟩
  | leftOpen =>
    refine ⟨.inr ⟨ofText_nil, ?_⟩, by simp [Token.runsOn]⟩
    rintro item ⟨⟩
    rfl

theorem leads_of_read {name rest : Text} {item : Attribute} (named : Attribute.IsName name)
    (read : Attribute.Read name item rest) : Leads (.attr item) (ofText rest) := by
  cases read with
  | flag clear => exact ⟨.inl (.flag named), fun _ => spaced_of_clear clear⟩
  | valued spacing value =>
    cases value with
    | literal quoted => exact ⟨.inl (.literal named spacing quoted), by simp [Token.runsOn]⟩
    | expression balanced =>
      exact ⟨.inl (.expression named spacing balanced), by simp [Token.runsOn]⟩
    | word word clear => exact ⟨.inl (.word named spacing word), fun _ => spaced_of_clear clear⟩
    | missing | leftOpen =>
      refine ⟨.inr ⟨ofText_nil, ?_⟩, fun _ => .inl ofText_nil⟩
      rintro item ⟨⟩
      rfl

theorem leads_of_ofText {text : Text} {token : Token} {rest : AttributeList}
    (first : ofText text = token :: rest) : Leads token rest := by
  rw [ofText.eq_def] at first
  split at first
  · cases first
  rename_i c cs
  split at first
  · rename_i blank
    obtain ⟨rfl, rfl⟩ := List.cons.inj first
    refine ⟨.inl (.blank (by simp) fun d member => ?_), by simp [Token.runsOn]⟩
    rcases List.mem_cons.1 member with rfl | member
    · exact blank
    · exact List.all_eq_true.1 List.all_takeWhile d member
  rename_i notBlank
  split at first
  · obtain ⟨rfl, rfl⟩ := List.cons.inj first
    exact ⟨.inl .slash, by simp [Token.runsOn]⟩
  rename_i notSlash
  split at first
  · obtain ⟨rfl, rfl⟩ := List.cons.inj first
    exact leads_of_spread (Attribute.readSpread_inv cs)
  · rename_i notOpen
    obtain ⟨rfl, rfl⟩ := List.cons.inj first
    have named := Attribute.isName_read cs (by simpa using notBlank) (by simpa using notSlash)
      (by simpa using notOpen)
    exact leads_of_read named (Attribute.read_inv c cs)

/-- A literal that is read from its own text is closed. -/
theorem formed_of_literal {item : Attribute} (alone : Alone (.attr item))
    (literal : item.value.isLiteral = true) : Formed (.attr item) := by
  rcases (leads_of_ofText alone).formed with formed | ⟨-, other⟩
  · exact formed
  · rw [other item rfl] at literal
    cases literal

/-! ### Steady lists -/

def Keeps (a b : Token) : Prop := a.Formed ∧ (a.runsOn = true → b.isBlank = true)

theorem keeps_of_firm {a : Token} (firm : a.Firm) (b : Token) : Keeps a b :=
  ⟨firm.1, fun runsOn => by simp [firm.2] at runsOn⟩

/-- Each token keeps the next one apart, and the last is read from its own text. White space may
still stand in several runs. -/
structure Steady (list : AttributeList) : Prop where
  chain : list.IsChain Keeps
  last : ∀ token ∈ list.getLast?, Alone token

section
variable {list before after a b : AttributeList} {token : Token} {item : Attribute}

theorem steady_append (ahead : a.IsChain Keeps) (behind : Steady b)
    (seam : ∀ x ∈ a.getLast?, x.Formed ∧ ∀ y ∈ b.head?, x.runsOn = true → y.isBlank = true) :
    Steady (a ++ b) := by
  refine ⟨List.isChain_append.2 ⟨ahead, behind.chain, fun x atEnd y atStart => ?_⟩, ?_⟩
  · exact ⟨(seam x atEnd).1, (seam x atEnd).2 y atStart⟩
  · intro token atEnd
    rw [List.getLast?_append] at atEnd
    cases last : b.getLast? with
    | some other => exact behind.last token (by simpa [last] using atEnd)
    | none => exact alone_of_formed (seam token (by simpa [last] using atEnd)).1

theorem steady_cons (formed : token.Formed)
    (ends : ∀ next ∈ list.head?, token.runsOn = true → next.isBlank = true)
    (steady : Steady list) : Steady (token :: list) := by
  refine steady_append (a := [token]) (List.isChain_singleton token) steady fun x atEnd => ?_
  obtain rfl : token = x := by simpa using atEnd
  exact ⟨formed, ends⟩

theorem steady_cons_firm (firm : token.Firm) (steady : Steady list) : Steady (token :: list) :=
  steady_cons firm.1 (fun next _ => (keeps_of_firm firm next).2) steady

theorem Steady.parts (steady : Steady (a ++ b)) :
    a.IsChain Keeps ∧ Steady b ∧ ∀ x ∈ a.getLast?, ∀ y ∈ b.head?, Keeps x y := by
  obtain ⟨ahead, behind, seam⟩ := List.isChain_append.1 steady.chain
  refine ⟨ahead, ⟨behind, fun token atEnd => steady.last token ?_⟩, seam⟩
  rw [List.getLast?_append, Option.mem_def.1 atEnd, Option.some_or]
  rfl

theorem Steady.tail (steady : Steady (token :: list)) : Steady list :=
  (Steady.parts (a := [token]) steady).2.1

/-- Nothing before another token is left open. -/
theorem Steady.formed_before (steady : Steady (before ++ token :: after)) :
    ∀ other ∈ before, other.Formed := by
  induction before with
  | nil => simp
  | cons first rest ih =>
    have chain := steady.chain
    rw [List.cons_append, List.isChain_cons] at chain
    intro other member
    rcases List.mem_cons.1 member with rfl | member
    · cases rest with
      | nil => exact (chain.1 token rfl).1
      | cons next rest => exact (chain.1 next rfl).1
    · exact ih steady.tail other member

theorem Steady.alone (steady : Steady list) (member : token ∈ list) : Alone token := by
  obtain ⟨before, after, rfl⟩ := List.append_of_mem member
  cases after with
  | nil => exact steady.last token (by simp)
  | cons next after =>
    rw [List.append_cons] at steady
    exact alone_of_formed (steady.formed_before token (by simp))

theorem Steady.formed_literal (steady : Steady list) (member : .attr item ∈ list)
    (literal : item.value.isLiteral = true) : Formed (.attr item) :=
  formed_of_literal (steady.alone member) literal

/-- What follows the first token that was read is read from its own text. -/
theorem ofText_rest {text : Text} (first : ofText text = token :: list) :
    ofText (render list) = list := by
  rw [ofText.eq_def] at first
  split at first
  · cases first
  · repeat' split at first
    all_goals
      obtain ⟨-, rfl⟩ := List.cons.inj first
      rw [render_ofText]

/-- Every text is read as a steady list, also if its last value is never closed. -/
theorem steady_ofText (text : Text) : Steady (ofText text) := by
  generalize read : ofText text = list
  induction list generalizing text with
  | nil => exact ⟨List.isChain_nil, by simp⟩
  | cons token rest ih =>
    have leads := leads_of_ofText read
    have inner := ih (render rest) (ofText_rest read)
    cases rest with
    | nil =>
      refine ⟨List.isChain_singleton token, fun other atEnd => ?_⟩
      obtain rfl : token = other := by simpa using atEnd
      have whole := render_ofText text
      rw [read, render_cons, render_nil, List.append_nil] at whole
      rwa [Alone, whole]
    | cons next rest =>
      refine steady_cons (leads.formed.resolve_right (by simp)) (fun y atStart runsOn => ?_) inner
      obtain rfl : next = y := by simpa using atStart
      rcases leads.spaced runsOn with none | ⟨run, tail, same⟩
      · cases none
      · exact (List.cons.inj same).1 ▸ rfl

theorem compact_ofText (text : Text) : Compact (ofText text) := by
  fun_induction ofText text with
  | case1 => exact List.isChain_nil
  | case2 c cs blank ih =>
    refine compact_cons.2 ⟨fun next atStart blanks => ?_, ih⟩
    obtain ⟨tail, found⟩ := List.head?_eq_some_iff.1 atStart
    cases next with
    | blank run => exact no_blank_of_clear (clear_dropWhile _ _) run tail found
    | attr item | slash => cases blanks.2
  | case3 c cs notBlank slash ih => exact compact_cons.2 ⟨by simp [Token.isBlank], ih⟩
  | case4 c cs notBlank notSlash opens ih | case5 c cs notBlank notSlash notOpen ih =>
    exact compact_cons.2 ⟨by simp, ih⟩

/-- A text that is read as white space first has white space in front, and what follows that is
read as the rest. -/
theorem clear_of_ofText {text : Text} (read : ofText text = token :: list) :
    (token.isBlank = false → Clear Text.isBlank text) ∧
      (token.isBlank = true → Clear (fun c => !Text.isBlank c) text ∧
        ofText (text.dropWhile Text.isBlank) = list) := by
  cases text with
  | nil => simp [ofText_nil] at read
  | cons c cs =>
    rcases ofText_cons c cs with ⟨blank, run, tail, found⟩ | ⟨notBlank, tail, found⟩ |
      ⟨notBlank, item, tail, found, -⟩
    · obtain ⟨rfl, rfl⟩ := List.cons.inj (found.symm.trans read)
      refine ⟨by simp [Token.isBlank], fun _ => ⟨?_, ?_⟩⟩
      · rintro d ⟨⟩
        simp [blank]
      · rw [ofText, if_pos blank] at found
        rw [List.dropWhile_cons_of_pos blank]
        exact (List.cons.inj found).2
    all_goals
      obtain ⟨rfl, rfl⟩ := List.cons.inj (found.symm.trans read)
      refine ⟨fun _ => ?_, by simp [Token.isBlank]⟩
      rintro d ⟨⟩
      exact notBlank

theorem no_equals_of_ofText {text : Text}
    (plain : ∀ item, .attr item ∈ ofText text → item.name.head? ≠ some '=') :
    Clear (· == '=') text := by
  intro c first
  obtain ⟨cs, rfl⟩ := List.head?_eq_some_iff.1 first
  rw [beq_eq_false_iff_ne]
  rintro rfl
  rcases ofText_cons '=' cs with ⟨blank, -⟩ | ⟨-, tail, slash⟩ | ⟨-, item, tail, found, head⟩
  · exact absurd blank (by decide)
  · rw [ofText_named (by decide) (by decide) (by decide)] at slash
    cases slash
  · exact plain item (by simp [found]) head

/-- A steady list with single runs of white space is read back from its text. A name that starts
with an equals sign could be taken for a value. -/
theorem ofText_render_of_steady (steady : Steady list) (compact : Compact list)
    (plain : ∀ item, .attr item ∈ list → item.name.head? ≠ some '=') :
    ofText (render list) = list := by
  induction list with
  | nil => exact ofText_nil
  | cons token rest ih =>
    have read := ih steady.tail (compact_cons.1 compact).2 fun item member =>
      plain item (by simp [member])
    cases rest with
    | nil =>
      rw [render_cons, render_nil, List.append_nil]
      exact steady.last token rfl
    | cons next rest =>
      obtain ⟨formed, ends⟩ := (List.isChain_cons_cons.1 steady.chain).1
      obtain ⟨unspaced, spaced⟩ := clear_of_ofText read
      rw [render_cons, ofText_formed formed (fun blank => ?_) fun runsOn => ?_, read]
      · have single := (compact_cons.1 compact).1 next rfl
        exact unspaced (by simpa [blank] using single)
      · obtain ⟨clear, after⟩ := spaced (ends runsOn)
        refine ⟨clear, no_equals_of_ofText fun item member => ?_⟩
        rw [after] at member
        exact plain item (by simp [member])

/-! ### Edits of steady lists -/

theorem Steady.erase (steady : Steady (before ++ .attr item :: after)) :
    Steady (before ++ after) := by
  obtain ⟨ahead, behind, seam⟩ := steady.parts
  refine steady_append ahead behind.tail fun x atEnd => ?_
  obtain ⟨formed, ends⟩ := seam x atEnd (.attr item) rfl
  exact ⟨formed, fun y _ runsOn => by cases ends runsOn⟩

theorem Steady.replace {new : Attribute} (steady : Steady (before ++ .attr item :: after))
    (firm : Firm (.attr new)) : Steady (before ++ .attr new :: after) := by
  obtain ⟨ahead, behind, seam⟩ := steady.parts
  refine steady_append ahead (steady_cons_firm firm behind.tail) fun x atEnd => ?_
  obtain ⟨formed, ends⟩ := seam x atEnd (.attr item) rfl
  exact ⟨formed, fun y _ runsOn => by cases ends runsOn⟩

theorem Steady.collapseBlankAt (steady : Steady list) (index : Nat) :
    Steady (list.collapseBlankAt index) := by
  rcases collapseBlankAt_cases list index with ⟨same, -⟩ | ⟨front, run, ahead, blanks, collapsed⟩
  · rwa [same]
  · rw [collapsed]
    rw [← List.take_append_drop index list, ahead, ← List.append_cons] at steady
    obtain ⟨ahead, behind, seam⟩ := steady.parts
    refine steady_append ahead behind.tail fun x atEnd => ?_
    exact ⟨(seam x atEnd _ rfl).1, fun y atStart _ => blanks y atStart⟩

theorem Steady.separate (steady : Steady list) : Steady list.separate := by
  induction list with
  | nil => exact steady
  | cons token rest ih =>
    have inner := ih steady.tail
    have keeps := (List.isChain_cons.1 steady.chain).1
    cases rest with
    | nil => rwa [separate_cons, AttributeList.separate, if_neg (by simp)]
    | cons next rest =>
      have formed := (keeps next rfl).1
      rw [separate_cons]
      split
      · refine steady_cons formed (fun y first _ => ?_) (steady_cons_firm Token.firm_space inner)
        obtain rfl : Token.space = y := by simpa using first
        rfl
      · refine steady_cons formed (fun y first => ?_) inner
        rw [head?_separate] at first
        exact (keeps y first).2

theorem isChain_of_firm (firm : ∀ token ∈ list, token.Firm) : list.IsChain Keeps := by
  induction list with
  | nil => exact List.isChain_nil
  | cons token rest ih =>
    refine List.isChain_cons.2 ⟨fun next _ => keeps_of_firm (firm token (by simp)) next, ?_⟩
    exact ih fun other member => firm other (by simp [member])

theorem steady_append_firm (firm : ∀ token ∈ a, token.Firm) (steady : Steady b) :
    Steady (a ++ b) := by
  refine steady_append (isChain_of_firm firm) steady fun x atEnd => ?_
  have last := firm x (List.mem_of_getLast? atEnd)
  exact ⟨last.1, fun y _ => (keeps_of_firm last y).2⟩

/-- Closed values can be put in wherever nothing before them is left open. -/
theorem Steady.insertAt {index : Nat} {attrs : List Attribute} (steady : Steady list)
    (formed : ∀ token ∈ list.take index, token.Formed)
    (firm : ∀ item ∈ attrs, Firm (.attr item)) : Steady (list.insertAt index attrs) := by
  by_cases none : attrs = []
  · simpa [AttributeList.insertAt, none] using steady
  rw [← List.take_append_drop index list] at steady
  obtain ⟨ahead, behind, -⟩ := steady.parts
  have added : ∀ token ∈ spaced attrs, token.Firm := by
    intro token member
    rcases mem_intersperse member with inside | rfl
    · obtain ⟨item, among, rfl⟩ := List.mem_map.1 inside
      exact firm item among
    · exact Token.firm_space
  have gaps (beside : Option Token) : ∀ token ∈ gapBeside beside, token.Firm :=
    fun token member => mem_gapBeside member ▸ Token.firm_space
  have inner : Steady (spaced attrs ++ (gapBeside (list.drop index).head? ++ list.drop index)) :=
    steady_append_firm added (steady_append_firm (gaps _) behind)
  rw [insertAt_eq _ _ none, List.append_assoc]
  refine steady_append (List.isChain_append.2 ⟨ahead, isChain_of_firm (gaps _), ?_⟩) inner ?_
  · intro x atEnd y atStart
    obtain rfl := mem_gapBeside (List.mem_of_mem_head? atStart)
    exact ⟨formed x (List.mem_of_getLast? atEnd), fun _ => rfl⟩
  · -- The gap leaves a token before the new attributes that is none itself.
    intro x atEnd
    have apart := Token.runsOn_of_not_attribute (apart_before_gap x atEnd)
    refine ⟨?_, fun y _ runsOn => by simp [apart] at runsOn⟩
    rcases List.mem_append.1 (List.mem_of_getLast? atEnd) with before | gap
    · exact formed x before
    · exact (gaps _ x gap).1

end
end AttributeList
end Retag
