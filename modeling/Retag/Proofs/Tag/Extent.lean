import Retag.Proofs.Attribute.Shape
import Retag.Proofs.Text.Octet
import Retag.Tag.Basic

/-! How far an open tag reaches. The search for its end and the reader of its attributes count
strings and brace groups each in a loop of its own. Main statement: the search passes over every list
of closed tokens as a whole, whatever `>` stand in their strings and groups. -/
namespace Retag

namespace Text

/-- Characters at which the search for the end of a tag changes its state or stops. -/
def steersTagEnd (c : Char) : Bool := isQuoteMark c || c == '{' || c == '}' || c == '>'

/-- With `depth` groups open, the search passes over the text and is then where it was. -/
def Passes (depth : Nat) (front : Text) : Prop :=
  ∀ rest, untilTagEnd? none depth (front ++ rest) =
    (untilTagEnd? none depth rest).map (consFirst front)

section
variable {depth : Nat} {a b body : Text} {mark : Char}

theorem passes_nil : Passes depth [] := by
  intro rest
  simp

theorem Passes.append (first : Passes depth a) (second : Passes depth b) :
    Passes depth (a ++ b) := by
  intro rest
  rw [List.append_assoc, first, second, Option.map_map, consFirst_comp]

theorem untilTagEnd?_step {c : Char} (depth : Nat) (cs : Text) (unquoted : isQuoteMark c = false)
    (notOpen : c ≠ '{') (notClose : c ≠ '}') (within : c ≠ '>' ∨ depth ≠ 0) :
    untilTagEnd? none depth (c :: cs) = (untilTagEnd? none depth cs).map (consFirst [c]) := by
  have notEnd : (c == '>' && depth == 0) = false := by
    rcases within with other | inside
    · simp [other]
    · simp [inside]
  rw [untilTagEnd?.eq_def]
  simp [unquoted, notOpen, notClose, notEnd]

/-- What follows the end of a tag has no part in finding it. -/
theorem untilTagEnd?_rest {quote : Option Char} {text first after : Text}
    (read : untilTagEnd? quote depth text = some (first, after)) (rest : Text) :
    untilTagEnd? quote depth (first ++ '>' :: rest) = some (first, rest) := by
  fun_induction untilTagEnd? quote depth text generalizing first after with
  | case1 => cases read
  | case2 => cases read
  | case3 depth c mark escape d ds ih =>
    obtain ⟨tail, inner, rfl⟩ := eq_of_map_consFirst read
    simp [untilTagEnd?, beq_iff_eq.1 escape, ih inner, consFirst]
  | case4 depth c cs mark plain ih =>
    obtain ⟨tail, inner, rfl⟩ := eq_of_map_consFirst read
    rw [List.append_assoc, List.singleton_append, untilTagEnd?.eq_def]
    have onward := ih inner
    simp only [beq_iff_eq] at onward
    simp [plain, onward, consFirst]
  | case5 depth c cs quoted ih =>
    obtain ⟨tail, inner, rfl⟩ := eq_of_map_consFirst read
    rw [List.append_assoc, List.singleton_append, untilTagEnd?.eq_def]
    simp [quoted, ih inner, consFirst]
  | case6 depth c cs unquoted opening ih =>
    obtain ⟨tail, inner, rfl⟩ := eq_of_map_consFirst read
    rw [List.append_assoc, List.singleton_append, untilTagEnd?.eq_def]
    simp [unquoted, opening, ih inner, consFirst]
  | case7 depth c cs unquoted notOpen closing ih =>
    obtain ⟨tail, inner, rfl⟩ := eq_of_map_consFirst read
    rw [List.append_assoc, List.singleton_append, untilTagEnd?.eq_def]
    simp [unquoted, notOpen, closing, ih inner, consFirst]
  | case8 depth c cs unquoted notOpen notClose ending =>
    obtain ⟨rfl, rfl⟩ := Prod.mk.inj (Option.some.inj read)
    simp only [Bool.and_eq_true, beq_iff_eq] at ending
    obtain ⟨rfl, rfl⟩ := ending
    rfl
  | case9 depth c cs unquoted notOpen notClose notEnd ih =>
    obtain ⟨tail, inner, rfl⟩ := eq_of_map_consFirst read
    rw [List.append_assoc, List.singleton_append, untilTagEnd?.eq_def]
    simp [unquoted, notOpen, notClose, notEnd, ih inner, consFirst]

theorem passes_of_inert (inert : ∀ c ∈ a, steersTagEnd c = false) : Passes depth a := by
  induction a with
  | nil => exact passes_nil
  | cons c cs ih =>
    intro rest
    have free := inert c List.mem_cons_self
    simp only [steersTagEnd, Bool.or_eq_false_iff, beq_eq_false_iff_ne] at free
    obtain ⟨⟨⟨unquoted, notOpen⟩, notClose⟩, notEnd⟩ := free
    have tail := ih (fun d member => inert d (List.mem_cons_of_mem _ member)) rest
    rw [List.cons_append, untilTagEnd?_step depth _ unquoted notOpen notClose (.inl notEnd), tail,
      Option.map_map, consFirst_comp, List.singleton_append]

theorem untilTagEnd?_string (depth : Nat) (rest : Text) (quoted : Quoted mark body)
    (noEscape : mark ≠ '\\') :
    untilTagEnd? (some mark) depth (body ++ mark :: rest) =
      (untilTagEnd? none depth rest).map (consFirst (body ++ [mark])) := by
  induction quoted with
  | nil =>
    rw [List.nil_append, untilTagEnd?.eq_def]
    simp [noEscape]
  | escape _ ih => simp [untilTagEnd?, ih]
  | plain other notEscape _ ih =>
    rw [List.cons_append, untilTagEnd?.eq_def]
    simp [ih, other, notEscape]

theorem passes_string (quotes : isQuoteMark mark = true) (quoted : Quoted mark body) :
    Passes depth (mark :: body ++ [mark]) := by
  intro rest
  have inner := untilTagEnd?_string depth rest quoted (isQuoteMark_ne_escape quotes)
  simp [untilTagEnd?, quotes, inner]

theorem passes_group (inner : Passes (depth + 1) body) : Passes depth ('{' :: body ++ ['}']) := by
  intro rest
  have opens : isQuoteMark '{' = false := by decide
  have closes : isQuoteMark '}' = false := by decide
  have tail : untilTagEnd? none (depth + 1) (body ++ '}' :: rest) =
      (untilTagEnd? none depth rest).map (consFirst (body ++ ['}'])) := by
    rw [inner]
    simp [untilTagEnd?, closes]
  simp [untilTagEnd?, opens, tail]

/-- Inside a group a `>` ends nothing, so any balanced text is passed there. -/
theorem passes_balanced (balanced : Balanced body) : Passes (depth + 1) body := by
  induction balanced generalizing depth with
  | nil => exact passes_nil
  | @plain c rest unquoted notOpen notClose _ ih =>
    have first : Passes (depth + 1) [c] := by
      intro rest
      exact untilTagEnd?_step _ rest unquoted notOpen notClose (.inr (Nat.succ_ne_zero depth))
    exact first.append ih
  | @group body rest _ _ bodyPassed restPassed =>
    have whole : Passes (depth + 1) (('{' :: body ++ ['}']) ++ rest) :=
      (passes_group bodyPassed).append restPassed
    simpa using whole
  | @string mark body rest quotes quoted _ ih =>
    have whole : Passes (depth + 1) ((mark :: body ++ [mark]) ++ rest) :=
      (passes_string quotes quoted).append ih
    simpa using whole

/-- A text that is passed outside all groups reaches up to the `>` after it. -/
theorem Passes.untilTagEnd? (passes : Passes 0 a) (rest : Text) :
    Text.untilTagEnd? none 0 (a ++ '>' :: rest) = some (a, rest) := by
  have ends : Text.untilTagEnd? none 0 ('>' :: rest) = some ([], rest) := by
    simp [Text.untilTagEnd?, show isQuoteMark '>' = false by decide]
  rw [passes, ends, Option.map_some, consFirst, List.append_nil]

end
end Text

open Text (Passes steersTagEnd)

/-- The value is closed, and no `>` in it stands outside a string or group. -/
def Attribute.Value.Closed : Attribute.Value → Prop
  | .literal quote text => Text.Quoted quote.char text
  | .expression text => Text.Balanced text
  | .bareWord text => ∀ c ∈ text, steersTagEnd c = false
  | .boolean => True

inductive Token.Closed : Token → Prop where
  | blank {run : Text} : (∀ c ∈ run, Text.isBlank c = true) → Closed (.blank run)
  | slash : Closed .slash
  | spread {body : Text} {spacing : Attribute.Spacing} : Text.Balanced body →
      Closed (.attr { name := '{' :: body ++ ['}'], value := .boolean, spacing })
  | named {item : Attribute} : (∀ c ∈ item.name, steersTagEnd c = false) → item.spacing.IsBlank →
      item.value.Closed → Closed (.attr item)

theorem Text.inert_of_blank {c : Char} (blank : Text.isBlank c = true) :
    steersTagEnd c = false := by
  simp only [steersTagEnd, isQuoteMark, Bool.or_eq_false_iff, beq_eq_false_iff_ne]
  refine ⟨⟨⟨⟨⟨?_, ?_⟩, ?_⟩, ?_⟩, ?_⟩, ?_⟩ <;> rintro rfl <;> exact absurd blank (by decide)

theorem Attribute.Value.Closed.passes {value : Attribute.Value} (closed : value.Closed) :
    Passes 0 value.render := by
  cases value with
  | literal quote text =>
    have quotes : Text.isQuoteMark quote.char = true := by cases quote <;> decide
    exact Text.passes_string quotes closed
  | expression text => exact Text.passes_group (Text.passes_balanced closed)
  | bareWord text => exact Text.passes_of_inert closed
  | boolean => exact Text.passes_nil

theorem Attribute.passes_render {item : Attribute} (named : ∀ c ∈ item.name, steersTagEnd c = false)
    (blank : item.spacing.IsBlank) (closed : item.value.Closed) : Passes 0 item.render := by
  by_cases flag : item.value = .boolean
  · have whole : item.render = item.name := by simp [Attribute.render, flag]
    rw [whole]
    exact Text.passes_of_inert named
  · rw [Attribute.render_of_ne_boolean flag]
    apply Passes.append _ closed.passes
    apply Text.passes_of_inert
    intro c member
    simp only [List.mem_append, List.mem_cons] at member
    rcases member with (inName | inBefore) | rfl | inAfter
    · exact named c inName
    · exact Text.inert_of_blank (blank.1 c inBefore)
    · decide
    · exact Text.inert_of_blank (blank.2 c inAfter)

theorem Token.Closed.passes {token : Token} (closed : token.Closed) : Passes 0 token.render := by
  cases closed with
  | blank blank => exact Text.passes_of_inert fun c member => Text.inert_of_blank (blank c member)
  | slash => exact Text.passes_of_inert (List.forall_mem_singleton.2 (by decide))
  | spread balanced => exact Text.passes_group (Text.passes_balanced balanced)
  | named named blank closed => exact Attribute.passes_render named blank closed

theorem AttributeList.passes_render {list : AttributeList} (closed : ∀ token ∈ list, token.Closed) :
    Passes 0 list.render := by
  induction list with
  | nil => exact Text.passes_nil
  | cons token rest ih =>
    rw [render_cons]
    apply Passes.append
    · exact (closed token List.mem_cons_self).passes
    · exact ih fun other member => closed other (List.mem_cons_of_mem _ member)

namespace Tag

theorem openSitesFrom_tag {rest attributes after : Text} (name : Text) (offset : Nat)
    (ends : endsName rest = true)
    (closed : Text.untilTagEnd? none 0 rest = some (attributes, after)) :
    openSitesFrom name offset ('<' :: name ++ rest) =
      .bounded ⟨offset, name, attributes⟩ ::
        openSitesFrom name (offset + Text.size ('<' :: name) + attributes.size + 1) after := by
  have found := Text.dropPrefix?_append ('<' :: name) rest
  rw [List.cons_append] at found ⊢
  rw [openSitesFrom]
  split
  · rename_i absent
    rw [found] at absent
    cases absent
  · rename_i tail present
    obtain rfl : rest = tail := Option.some.inj (found.symm.trans present)
    rw [if_pos ends]
    split
    · rename_i attributes' after' closed'
      obtain ⟨rfl, rfl⟩ := Prod.mk.inj (Option.some.inj (closed.symm.trans closed'))
      rfl
    · rename_i endless
      rw [closed] at endless
      cases endless

theorem openSitesFrom_bounded {rest attributes after : Text} (name : Text) (offset : Nat)
    (ends : endsName rest = true)
    (closed : Text.untilTagEnd? none 0 rest = some (attributes, after)) :
    ∃ later, openSitesFrom name offset ('<' :: name ++ rest) =
      .bounded ⟨offset, name, attributes⟩ :: later :=
  ⟨_, openSitesFrom_tag name offset ends closed⟩

/-- A tag with any closed tokens after its name is the first that is found, and its attribute text is
theirs. The search stops there byte by byte too, where a backslash hides only the byte after it. -/
theorem openSites_spans_tokens (name rest : Text) {list : AttributeList}
    (closed : ∀ token ∈ list, token.Closed)
    (starts : ∀ c ∈ list.render.head?, Text.isAsciiBlank c = true ∨ c = '/') :
    (∃ later, openSites ('<' :: name ++ list.render ++ '>' :: rest) name =
      .bounded ⟨0, name, list.render⟩ :: later) ∧
    Text.untilTagEnd? none 0 (Text.octets (list.render ++ '>' :: rest)) =
      some (Text.octets list.render, Text.octets rest) := by
  have reached := (AttributeList.passes_render closed).untilTagEnd? rest
  constructor
  · have ends : endsName (list.render ++ '>' :: rest) = true := by
      cases text : list.render with
      | nil => rfl
      | cons c cs =>
        rcases starts c (by rw [text]; rfl) with blank | rfl
        · simp [endsName, blank]
        · rfl
    rw [List.append_assoc]
    exact openSitesFrom_bounded name 0 ends reached
  · rw [Text.untilTagEnd?_octets (by simp), reached]
    rfl

theorem openSites_spans_tokens_nested :
    let list : AttributeList :=
      [Token.space,
        .attr { name := ['t'], value := .literal .double "\\é\\\">".toList, spacing := ⟨[], ['\t']⟩ },
        .attr { name := "\x7b`\x7d>`\x7d".toList, value := .boolean },
        .attr { name := ['f'], value := .expression "() => \x7b'\x7d' > a\x7d".toList },
        .slash]
    (∀ token ∈ list, token.Closed) ∧
      (∀ c ∈ list.render.head?, Text.isAsciiBlank c = true ∨ c = '/') ∧
      (∃ later, openSites ('<' :: ['B'] ++ list.render ++ '>' :: "></B>".toList) ['B'] =
        .bounded ⟨0, ['B'], list.render⟩ :: later) ∧
      Text.untilTagEnd? none 0 (Text.octets (list.render ++ '>' :: "></B>".toList)) =
        some (Text.octets list.render, Text.octets "></B>".toList) := by
  intro list
  have literal : Text.Quoted '"' "\\é\\\">".toList :=
    .escape (.escape (.plain (by decide) (by decide) .nil))
  have template : Text.untilBrace? none 0 "`\x7d>`\x7d".toList =
      some ("`\x7d>`".toList, []) := by
    decide +kernel
  have arrow : Text.untilBrace? none 0 "() => \x7b'\x7d' > a\x7d\x7d".toList =
      some ("() => \x7b'\x7d' > a\x7d".toList, []) := by
    decide +kernel
  have closed : ∀ token ∈ list, token.Closed := by
    simp only [list, List.forall_mem_cons, List.not_mem_nil, false_implies, implies_true, and_true]
    exact ⟨.blank (List.all_eq_true.1 (by decide)),
      .named (List.forall_mem_singleton.2 (by decide))
        ⟨List.all_eq_true.1 (by decide), List.all_eq_true.1 (by decide)⟩ literal,
      .spread (Text.untilBrace?_eq_some_iff.1 template).2,
      .named (List.forall_mem_singleton.2 (by decide))
        ⟨List.all_eq_true.1 (by decide), List.all_eq_true.1 (by decide)⟩
        (Text.untilBrace?_eq_some_iff.1 arrow).2,
      .slash⟩
  have starts : ∀ c ∈ list.render.head?, Text.isAsciiBlank c = true ∨ c = '/' := by
    rintro c ⟨⟩
    exact .inl rfl
  exact ⟨closed, starts, openSites_spans_tokens ['B'] "></B>".toList closed starts⟩

end Tag
end Retag
