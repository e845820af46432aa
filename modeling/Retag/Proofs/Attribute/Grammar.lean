import Retag.Proofs.Attribute.Shape

/-! The grammar of attribute texts, on token lists: what each token may hold and what may stand
beside it. Main statement: a list of the grammar is read back from its text, and the list read from
a text is of the grammar exactly when no value or spread in it was left open. -/
namespace Retag

namespace AttributeList
open Attribute (IsName IsWord Spacing)
open Text (Clear takeWhile_clear dropWhile_clear clear_dropWhile)

def Spaced (rest : AttributeList) : Prop := rest = [] ∨ ∃ run tail, rest = .blank run :: tail

/-- White space and then an attribute whose name starts with an equals sign would be read as a
value. -/
def NoValueAhead (rest : AttributeList) : Prop :=
  ∀ run item tail, rest = .blank run :: .attr item :: tail → item.name.head? ≠ some '='

inductive WellFormed : AttributeList → Prop where
  | nil : WellFormed []
  | blank {run : Text} {rest : AttributeList} : run ≠ [] → (∀ c ∈ run, Text.isBlank c = true) →
      (∀ next tail, rest ≠ Token.blank next :: tail) → WellFormed rest →
      WellFormed (.blank run :: rest)
  | slash {rest : AttributeList} : WellFormed rest → WellFormed (.slash :: rest)
  | spread {body : Text} {rest : AttributeList} : Text.Balanced body → WellFormed rest →
      WellFormed (.attr { name := '{' :: body ++ ['}'], value := .boolean } :: rest)
  | flag {name : Text} {rest : AttributeList} : IsName name → Spaced rest → NoValueAhead rest →
      WellFormed rest → WellFormed (.attr { name, value := .boolean } :: rest)
  | bareWord {name text : Text} {spacing : Spacing} {rest : AttributeList} : IsName name →
      spacing.IsBlank → IsWord text → Spaced rest → WellFormed rest →
      WellFormed (.attr { name, value := .bareWord text, spacing } :: rest)
  | literal {name text : Text} {quote : Quote} {spacing : Spacing} {rest : AttributeList} :
      IsName name → spacing.IsBlank → Text.Quoted quote.char text → WellFormed rest →
      WellFormed (.attr { name, value := .literal quote text, spacing } :: rest)
  | expression {name text : Text} {spacing : Spacing} {rest : AttributeList} : IsName name →
      spacing.IsBlank → Text.Balanced text → WellFormed rest →
      WellFormed (.attr { name, value := .expression text, spacing } :: rest)

theorem ofText_blank {run rest : Text} (filled : run ≠ [])
    (blank : ∀ c ∈ run, Text.isBlank c = true) (clear : Clear Text.isBlank rest) :
    ofText (run ++ rest) = .blank run :: ofText rest := by
  obtain ⟨c, cs, rfl⟩ := List.exists_cons_of_ne_nil filled
  have inside : ∀ d ∈ cs, Text.isBlank d = true := fun d member => blank d (by simp [member])
  rw [List.cons_append, ofText, if_pos (blank c (by simp)), takeWhile_clear inside clear,
    dropWhile_clear inside clear]

theorem ofText_slash (rest : Text) : ofText ('/' :: rest) = .slash :: ofText rest := by
  rw [ofText, if_neg (by decide), if_pos (by decide)]

theorem ofText_spread {body rest : Text} (balanced : Text.Balanced body) :
    ofText ('{' :: body ++ '}' :: rest) =
      .attr { name := '{' :: body ++ ['}'], value := .boolean } :: ofText rest := by
  have read : Text.untilBrace? none 0 (body ++ '}' :: rest) = some (body, rest) :=
    Text.untilBrace?_eq_some_iff.2 ⟨rfl, balanced⟩
  rw [List.cons_append, ofText, if_neg (by decide), if_neg (by decide), if_pos (by decide)]
  simp only [Attribute.readSpread, read]

theorem ofText_named {c : Char} {cs : Text} (notBlank : Text.isBlank c = false) (notSlash : c ≠ '/')
    (notOpen : c ≠ '{') :
    ofText (c :: cs) = .attr (Attribute.read c cs).1 :: ofText (Attribute.read c cs).2 := by
  rw [ofText, if_neg (by simp [notBlank]), if_neg (by simpa using notSlash),
    if_neg (by simpa using notOpen)]

theorem head?_render_attr {item : Attribute} {rest : Text} (filled : item.name ≠ []) :
    (item.render ++ rest).head? = item.name.head? := by
  obtain ⟨c, cs, named⟩ := List.exists_cons_of_ne_nil filled
  unfold Attribute.render
  split <;> simp [named]

/-- The name of an attribute starts with a character that is not white space. -/
theorem WellFormed.name {item : Attribute} {rest : AttributeList}
    (wellFormed : WellFormed (.attr item :: rest)) :
    ∃ c cs, item.name = c :: cs ∧ Text.isBlank c = false := by
  cases wellFormed with
  | spread => exact ⟨'{', _, rfl, by decide⟩
  | flag named | bareWord named | literal named | expression named =>
    obtain ⟨c, cs, same, notBlank, -⟩ := named
    exact ⟨c, cs, same, notBlank⟩

/-- Only a token of white space renders to white space in front. -/
theorem WellFormed.clear {list : AttributeList} (wellFormed : WellFormed list)
    (noBlank : ∀ next tail, list ≠ Token.blank next :: tail) :
    Clear Text.isBlank (render list) := by
  intro d first
  cases list with
  | nil => simp at first
  | cons token tail =>
    cases token with
    | blank next => exact absurd rfl (noBlank next tail)
    | slash =>
      obtain rfl : '/' = d := by simpa [Token.render] using first
      decide
    | attr item =>
      obtain ⟨c, cs, named, notBlank⟩ := wellFormed.name
      rw [render_cons, Token.render, head?_render_attr (by simp [named]), named] at first
      exact Option.some.inj first ▸ notBlank

theorem WellFormed.spaced_clear {list : AttributeList} (wellFormed : WellFormed list)
    (spaced : Spaced list) : Clear (fun c => !Text.isBlank c) (render list) := by
  rcases spaced with rfl | ⟨run, tail, rfl⟩
  · exact fun d first => by simp at first
  · cases wellFormed with
    | blank filled blank =>
      obtain ⟨c, cs, rfl⟩ := List.exists_cons_of_ne_nil filled
      rintro d ⟨⟩
      simp [blank c (by simp)]

/-- No equals sign comes after the white space that follows a name without a value. -/
theorem WellFormed.noValue {list : AttributeList} (wellFormed : WellFormed list)
    (spaced : Spaced list) (noValue : NoValueAhead list) :
    Clear (· == '=') ((render list).dropWhile Text.isBlank) := by
  rcases spaced with rfl | ⟨run, tail, rfl⟩
  · exact fun d first => by simp at first
  cases wellFormed with
  | blank filled blank notBlank inner =>
    rw [render_cons, Token.render, dropWhile_clear blank (inner.clear notBlank)]
    intro d first
    cases tail with
    | nil => simp at first
    | cons token tail =>
      cases token with
      | blank next => exact absurd rfl (notBlank next tail)
      | slash =>
        obtain rfl : '/' = d := by simpa [Token.render] using first
        decide
      | attr item =>
        obtain ⟨c, cs, named, -⟩ := inner.name
        rw [render_cons, Token.render, head?_render_attr (by simp [named])] at first
        have notEquals := noValue run item tail rfl
        rw [first] at notEquals
        simpa using notEquals

theorem ofText_valued {name rest : Text} {value : Attribute.Value} {spacing : Spacing}
    (named : IsName name) (blank : spacing.IsBlank) (valued : value ≠ .boolean)
    (clear : Clear Text.isBlank (value.render ++ rest))
    (read : Attribute.readValue (value.render ++ rest) = (value, rest)) :
    ofText (({ name, value, spacing } : Attribute).render ++ rest) =
      .attr { name, value, spacing } :: ofText rest := by
  obtain ⟨c, cs, rfl, notBlank, notSlash, notOpen, inside⟩ := named
  have whole := Attribute.read_valued (Attribute.continuesName_of inside) blank clear (c := c)
  rw [Attribute.render_of_ne_boolean valued, List.append_assoc]
  simp only [List.cons_append, List.append_assoc] at whole ⊢
  rw [ofText_named notBlank notSlash notOpen, whole, read]

theorem ofText_flag {name rest : Text} (named : IsName name)
    (clear : Clear (fun c => !Text.isBlank c) rest)
    (noValue : Clear (· == '=') (rest.dropWhile Text.isBlank)) :
    ofText (name ++ rest) = .attr { name, value := .boolean } :: ofText rest := by
  obtain ⟨c, cs, rfl, notBlank, notSlash, notOpen, inside⟩ := named
  rw [List.cons_append, ofText_named notBlank notSlash notOpen,
    Attribute.read_flag (Attribute.continuesName_of inside) (Attribute.clear_continuesName clear)
      noValue]

theorem ofText_word {name text rest : Text} {spacing : Spacing} (named : IsName name)
    (blank : spacing.IsBlank) (word : IsWord text)
    (clear : Clear (fun c => !Text.isBlank c) rest) :
    ofText (({ name, value := .bareWord text, spacing } : Attribute).render ++ rest) =
      .attr { name, value := .bareWord text, spacing } :: ofText rest := by
  refine ofText_valued named blank (by simp) ?_ (Attribute.readValue_word word clear)
  obtain ⟨c, cs, rfl⟩ := List.exists_cons_of_ne_nil word.1
  rintro d ⟨⟩
  exact word.2.1 c (by simp)

theorem ofText_literal {name text rest : Text} {quote : Quote} {spacing : Spacing}
    (named : IsName name) (blank : spacing.IsBlank) (quoted : Text.Quoted quote.char text) :
    ofText (({ name, value := .literal quote text, spacing } : Attribute).render ++ rest) =
      .attr { name, value := .literal quote text, spacing } :: ofText rest := by
  refine ofText_valued named blank (by simp) ?_ (Attribute.readValue_literal rest quoted)
  rintro d ⟨⟩
  cases quote <;> decide

theorem ofText_expression {name text rest : Text} {spacing : Spacing} (named : IsName name)
    (blank : spacing.IsBlank) (balanced : Text.Balanced text) :
    ofText (({ name, value := .expression text, spacing } : Attribute).render ++ rest) =
      .attr { name, value := .expression text, spacing } :: ofText rest := by
  refine ofText_valued named blank (by simp) ?_ (Attribute.readValue_expression rest balanced)
  rintro d ⟨⟩
  decide

/-- A list of the grammar is read back from its text. -/
theorem ofText_render {list : AttributeList} (wellFormed : WellFormed list) :
    ofText (render list) = list := by
  induction wellFormed with
  | nil => rw [render_nil, ofText]
  | blank filled blank notBlank inner ih =>
    rw [render_cons, Token.render, ofText_blank filled blank (inner.clear notBlank), ih]
  | slash inner ih =>
    rw [render_cons, Token.render, List.singleton_append, ofText_slash, ih]
  | @spread body rest balanced inner ih =>
    have text : render (.attr { name := '{' :: body ++ ['}'], value := .boolean } :: rest) =
        '{' :: body ++ '}' :: render rest := by
      simp [Token.render, Attribute.render]
    rw [text, ofText_spread balanced, ih]
  | flag named spaced noValue inner ih =>
    rw [render_cons, Token.render, Attribute.render,
      ofText_flag named (inner.spaced_clear spaced) (inner.noValue spaced noValue), ih]
  | bareWord named blank word spaced inner ih =>
    rw [render_cons, Token.render, ofText_word named blank word (inner.spaced_clear spaced), ih]
  | literal named blank quoted inner ih =>
    rw [render_cons, Token.render, ofText_literal named blank quoted, ih]
  | expression named blank balanced inner ih =>
    rw [render_cons, Token.render, ofText_expression named blank balanced, ih]

end AttributeList

/-- Nothing in the attribute is left open: an equals sign is followed by a value, and what starts
with a quote or a brace is closed. -/
def Attribute.Complete (item : Attribute) : Prop :=
  match item.value with
  | .bareWord text => text ≠ [] ∧ ∀ c ∈ text.head?, opensValue c = false
  | .boolean => ∀ cs, item.name = '{' :: cs → ∃ body, Text.Balanced body ∧ cs = body ++ ['}']
  | _ => True

namespace AttributeList
open Text (Clear clear_dropWhile)

/-- The kind of the first token is decided by the first character, which an attribute's name also
starts with. -/
theorem ofText_cons (c : Char) (cs : Text) :
    (Text.isBlank c = true ∧ ∃ run tail, ofText (c :: cs) = .blank run :: tail) ∨
      (Text.isBlank c = false ∧ ∃ tail, ofText (c :: cs) = .slash :: tail) ∨
      (Text.isBlank c = false ∧
        ∃ item tail, ofText (c :: cs) = .attr item :: tail ∧ item.name.head? = some c) := by
  rw [ofText]
  split
  · rename_i blank
    exact .inl ⟨blank, _, _, rfl⟩
  rename_i notBlank
  have notBlank : Text.isBlank c = false := by simpa using notBlank
  split
  · exact .inr (.inl ⟨notBlank, _, rfl⟩)
  · refine .inr (.inr ⟨notBlank, ?_⟩)
    split
    · rename_i opens
      refine ⟨_, _, rfl, ?_⟩
      obtain rfl := beq_iff_eq.1 opens
      unfold Attribute.readSpread
      split <;> rfl
    · refine ⟨_, _, rfl, ?_⟩
      dsimp only [Attribute.read]
      split <;> rfl

theorem no_blank_of_clear {text : Text} (clear : Clear Text.isBlank text) (run : Text)
    (tail : AttributeList) : ofText text ≠ .blank run :: tail := by
  intro first
  cases text with
  | nil => simp [ofText] at first
  | cons c cs =>
    rcases ofText_cons c cs with ⟨blank, -⟩ | ⟨-, _, found⟩ | ⟨-, _, _, found, -⟩
    · simp [clear c rfl] at blank
    all_goals simp [found] at first

theorem spaced_of_clear {text : Text} (clear : Clear (fun c => !Text.isBlank c) text) :
    Spaced (ofText text) := by
  cases text with
  | nil => exact .inl (by rw [ofText])
  | cons c cs =>
    have blank : Text.isBlank c = true := by simpa using clear c rfl
    rcases ofText_cons c cs with ⟨-, found⟩ | ⟨notBlank, -⟩ | ⟨notBlank, -⟩
    · exact .inr found
    all_goals simp [blank] at notBlank

theorem head?_name {text : Text} {item : Attribute} {tail : AttributeList}
    (first : ofText text = .attr item :: tail) : item.name.head? = text.head? := by
  cases text with
  | nil => simp [ofText] at first
  | cons c cs =>
    rcases ofText_cons c cs with ⟨-, _, _, found⟩ | ⟨-, _, found⟩ | ⟨-, read, _, found, head⟩
    · simp [found] at first
    · simp [found] at first
    · obtain ⟨⟨rfl⟩, -⟩ := List.cons.inj (found.symm.trans first)
      exact head

theorem noValueAhead_of_clear {text : Text}
    (clear : Clear (· == '=') (text.dropWhile Text.isBlank)) : NoValueAhead (ofText text) := by
  intro run item tail found equals
  cases text with
  | nil => simp [ofText] at found
  | cons c cs =>
    rcases ofText_cons c cs with ⟨blank, -⟩ | ⟨-, _, slash⟩ | ⟨-, _, _, attr, -⟩
    · rw [ofText, if_pos blank] at found
      rw [List.dropWhile_cons_of_pos blank] at clear
      rw [head?_name (List.cons.inj found).2] at equals
      exact absurd (clear '=' equals) (by decide)
    · simp [slash] at found
    · simp [attr] at found

theorem wellFormed_spread {item : Attribute} {rest : Text} (read : Attribute.ReadSpread item rest)
    (complete : item.Complete) (inner : WellFormed (ofText rest)) :
    WellFormed (.attr item :: ofText rest) := by
  cases read with
  | closed balanced => exact .spread balanced inner
  | leftOpen unbalanced =>
    obtain ⟨body, balanced, rfl⟩ := complete _ rfl
    exact absurd rfl (unbalanced body [] balanced)

theorem wellFormed_named {name rest : Text} {item : Attribute} (named : Attribute.IsName name)
    (read : Attribute.Read name item rest) (complete : item.Complete)
    (inner : WellFormed (ofText rest)) : WellFormed (.attr item :: ofText rest) := by
  cases read with
  | flag clear noValue =>
    exact .flag named (spaced_of_clear clear) (noValueAhead_of_clear noValue) inner
  | valued blank value =>
    cases value with
    | literal quoted => exact .literal named blank quoted inner
    | expression balanced => exact .expression named blank balanced inner
    | word word clear => exact .bareWord named blank word (spaced_of_clear clear) inner
    | missing => exact absurd rfl complete.1
    | leftOpen opens => simp [complete.2 _ rfl] at opens

/-- A text in which nothing is left open is read as a list of the grammar. -/
theorem wellFormed_ofText {text : Text}
    (complete : ∀ item, .attr item ∈ ofText text → item.Complete) : WellFormed (ofText text) := by
  fun_induction ofText text with
  | case1 => exact .nil
  | case2 c cs blank ih =>
    refine .blank (by simp) ?_ (no_blank_of_clear (clear_dropWhile _ _))
      (ih fun item member => complete item (by simp [member]))
    intro d member
    rcases List.mem_cons.1 member with rfl | member
    · exact blank
    · exact List.all_eq_true.1 List.all_takeWhile d member
  | case3 c cs notBlank slash ih =>
    exact .slash (ih fun item member => complete item (by simp [member]))
  | case4 c cs notBlank notSlash opens ih =>
    exact wellFormed_spread (Attribute.readSpread_inv cs) (complete _ (by simp))
      (ih fun item member => complete item (by simp [member]))
  | case5 c cs notBlank notSlash notOpen ih =>
    have named := Attribute.isName_read cs (by simpa using notBlank) (by simpa using notSlash)
      (by simpa using notOpen)
    exact wellFormed_named named (Attribute.read_inv c cs) (complete _ (by simp))
      (ih fun item member => complete item (by simp [member]))

theorem WellFormed.complete {list : AttributeList} {item : Attribute}
    (wellFormed : WellFormed list) (member : .attr item ∈ list) : item.Complete := by
  induction wellFormed with
  | nil => simp at member
  | blank _ _ _ _ ih => exact ih (by simpa using member)
  | slash _ ih => exact ih (by simpa using member)
  | spread balanced _ ih =>
    rcases List.mem_cons.1 member with ⟨⟨⟩⟩ | member
    · rintro cs ⟨⟩
      exact ⟨_, balanced, rfl⟩
    · exact ih member
  | flag named _ _ _ ih =>
    rcases List.mem_cons.1 member with ⟨⟨⟩⟩ | member
    · obtain ⟨c, cs, rfl, -, -, notOpen, -⟩ := named
      rintro _ ⟨⟩
      exact absurd rfl notOpen
    · exact ih member
  | bareWord _ _ word _ _ ih =>
    rcases List.mem_cons.1 member with ⟨⟨⟩⟩ | member
    · exact ⟨word.1, word.2.2⟩
    · exact ih member
  | literal _ _ _ _ ih | expression _ _ _ _ ih =>
    rcases List.mem_cons.1 member with ⟨⟨⟩⟩ | member
    · trivial
    · exact ih member

/-- Reading inverts rendering on the grammar's lists, and a text has such a list exactly when
nothing in what is read from it is left open. -/
theorem ofText_recognises :
    (∀ list, WellFormed list → ofText (render list) = list) ∧
      ∀ text, (∃ list, WellFormed list ∧ render list = text) ↔
        ∀ item, .attr item ∈ ofText text → item.Complete := by
  refine ⟨fun list => ofText_render, fun text => ⟨?_, fun complete => ?_⟩⟩
  · rintro ⟨list, wellFormed, rfl⟩ item member
    rw [ofText_render wellFormed] at member
    exact wellFormed.complete member
  · exact ⟨ofText text, wellFormed_ofText complete, render_ofText text⟩

theorem ofText_recognises_nested :
    let list : AttributeList :=
      [.attr { name := ['a'], value := .expression ['\x7b', '"', '\x7d', '"', '\x7d'] },
        Token.space, .attr { name := ['b'], value := .boolean }]
    WellFormed list ∧ ofText (render list) = list ∧
      ¬∃ list, WellFormed list ∧ render list = ['a', '=', '\''] := by
  intro list
  have balanced : Text.Balanced ['\x7b', '"', '\x7d', '"', '\x7d'] :=
    .group (.string rfl (.plain (by decide) (by decide) .nil) .nil) .nil
  have wellFormed : WellFormed list :=
    .expression ⟨'a', [], rfl, by decide, by decide, by decide, by simp⟩ ⟨by simp, by simp⟩ balanced
      (.blank (by simp) (List.all_eq_true.1 (by decide)) (by simp)
        (.flag ⟨'b', [], rfl, by decide, by decide, by decide, by simp⟩ (.inl rfl)
          (by simp [NoValueAhead]) .nil))
  refine ⟨wellFormed, ofText_recognises.1 list wellFormed, fun derived => ?_⟩
  have read : ofText ['a', '=', '\''] = [.attr { name := ['a'], value := .bareWord ['\''] }] := by
    decide +kernel
  have complete := (ofText_recognises.2 _).1 derived _ (read ▸ List.mem_singleton.2 rfl)
  exact absurd (complete.2 '\'' rfl) (by decide)

end AttributeList
end Retag
