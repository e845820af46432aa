import Retag.Color.Mapping
import Retag.Proofs.Attribute.Editing

/-! Where the tokens of a mapped list come from. Every step keeps tokens, puts in single spaces, or
writes a word of the tables as the literal of a `variant` or a `colorScheme`. -/
namespace Retag.ColorTables

def words (colors : ColorTables) : List Text :=
  colors.fallback :: colors.base.map (·.2) ++ colors.styles ++
    (colors.compound ++ colors.styleColors).flatMap fun (_, styled) =>
      [styled.variant, styled.scheme]

/-- The token was there, is a single space, or holds a word of the tables. -/
inductive Provenance (colors : ColorTables) (list : AttributeList) : Token → Prop where
  | kept {token : Token} : token ∈ list → Provenance colors list token
  | space : Provenance colors list Token.space
  | written {item : Attribute} : item.name = variantName ∨ item.name = schemeName →
      (∃ quote, ∃ text ∈ colors.words, item.value = .literal quote text) →
      (item.spacing = {} ∨ ∃ old, .attr old ∈ list ∧ item.spacing = old.spacing) →
      Provenance colors list (.attr item)

section
variable {colors : ColorTables} {list middle : AttributeList} {token : Token}

theorem Provenance.trans (steps : ∀ token ∈ middle, Provenance colors list token)
    (last : Provenance colors middle token) : Provenance colors list token := by
  cases last with
  | kept member => exact steps token member
  | space => exact .space
  | written named value spacing =>
    refine .written named value ?_
    rcases spacing with none | ⟨old, member, same⟩
    · exact .inl none
    · cases steps _ member with
      | kept member => exact .inr ⟨old, member, same⟩
      | written _ _ spacing => rwa [same]

theorem provenance_ofLiteral {name text : Text} (named : name = variantName ∨ name = schemeName)
    (word : text ∈ colors.words) : Provenance colors list (.attr (.ofLiteral name text)) :=
  .written named ⟨.double, text, word, rfl⟩ (.inl rfl)

theorem provenance_setLiteral {name text : Text} (named : name = variantName ∨ name = schemeName)
    (word : text ∈ colors.words) (member : token ∈ list.modify name (·.setLiteral text)) :
    Provenance colors list token := by
  rcases AttributeList.mem_modify member with kept | ⟨item, among, rfl, rfl⟩
  · exact .kept kept
  · unfold Attribute.setLiteral
    split
    · exact .written named ⟨_, text, word, rfl⟩ (.inr ⟨item, among, rfl⟩)
    · exact provenance_ofLiteral named word

theorem schemeOf_word (colors : ColorTables) (color : Text) :
    colors.schemeOf color ∈ colors.words := by
  unfold schemeOf
  cases found : colors.base.get? color with
  | none => simp [words]
  | some scheme =>
    obtain ⟨_, _, same, -⟩ := List.lookup_eq_some_iff.1 found
    simp [words, same]

def Known (colors : ColorTables) (styled : StyledScheme) : Prop :=
  styled.variant ∈ colors.words ∧ styled.scheme ∈ colors.words

theorem known_of_get? {table : Table StyledScheme} {key : Text} {styled : StyledScheme}
    (sub : table ⊆ colors.compound ++ colors.styleColors) (found : table.get? key = some styled) :
    colors.Known styled := by
  obtain ⟨_, _, same, -⟩ := List.lookup_eq_some_iff.1 found
  have member : (key, styled) ∈ colors.compound ++ colors.styleColors := sub (by simp [same])
  constructor <;> exact List.mem_append_right _ (List.mem_flatMap.2 ⟨_, member, by simp⟩)

theorem compoundAt?_known {key : Text} {styled : StyledScheme}
    (found : colors.compoundAt? key = some styled) : colors.Known styled := by
  rcases Option.or_eq_some_iff.1 found with entry | ⟨-, prefixed⟩
  · exact known_of_get? (List.subset_append_left _ _) entry
  · obtain ⟨style, member, read⟩ := List.exists_of_findSome?_eq_some prefixed
    unfold styled? at read
    split at read
    · cases read
    · cases read
    · obtain rfl := Option.some.inj read
      exact ⟨by simp [words, member], schemeOf_word colors _⟩

theorem resolve_known (colors : ColorTables) (value : Text) :
    (colors.resolve value).scheme ∈ colors.words ∧
      ∀ variant ∈ (colors.resolve value).variant, variant ∈ colors.words := by
  unfold resolve
  split
  · rename_i styled found
    have known : colors.Known styled := by
      rcases Option.or_eq_some_iff.1 found with compound | ⟨-, entry⟩
      · exact compoundAt?_known compound
      · exact known_of_get? (List.subset_append_right _ _) entry
    exact ⟨known.2, by simpa using known.1⟩
  · exact ⟨schemeOf_word colors _, by simp⟩

theorem splitVariant_provenance (member : token ∈ (colors.splitVariant list).1.list) :
    Provenance colors list token := by
  unfold splitVariant at member
  split at member
  · split at member
    · rename_i styled found
      exact provenance_setLiteral (.inl rfl) (compoundAt?_known found).1 member
    · exact .kept member
  · exact .kept member
  · exact .kept member

theorem splitVariant_word {scheme : Text} (hint : (colors.splitVariant list).2 = some scheme) :
    scheme ∈ colors.words := by
  unfold splitVariant at hint
  split at hint
  · split at hint
    · rename_i styled found
      obtain rfl := Option.some.inj hint
      exact (compoundAt?_known found).2
    · cases hint
  · cases hint
  · cases hint

theorem placeVariant_provenance {variant : Option Text} (list : AttributeList) (compound : Bool)
    (word : ∀ text ∈ variant, text ∈ colors.words) :
    (∀ token ∈ (placeVariant list variant compound).1, Provenance colors list token) ∧
      ∀ item ∈ (placeVariant list variant compound).2, Provenance colors [] (.attr item) := by
  unfold placeVariant
  split
  · exact ⟨fun _ => .kept, by simp⟩
  · split
    · exact ⟨fun _ => .kept, by simpa using provenance_ofLiteral (.inl rfl) (word _ rfl)⟩
    · split
      · exact ⟨fun _ => provenance_setLiteral (.inl rfl) (word _ rfl), by simp⟩
      · exact ⟨fun _ => .kept, by simp⟩

theorem placeScheme_provenance {scheme : Option Text} (list : AttributeList)
    (word : ∀ text ∈ scheme, text ∈ colors.words) :
    (∀ token ∈ (placeScheme list scheme).1.list, Provenance colors list token) ∧
      ∀ item ∈ (placeScheme list scheme).2, Provenance colors [] (.attr item) := by
  unfold placeScheme
  split
  · exact ⟨fun _ => .kept, by simp⟩
  · split
    · exact ⟨fun _ => .kept, by simpa using provenance_ofLiteral (.inr rfl) (word _ rfl)⟩
    · exact ⟨fun _ => .kept, by simp⟩
    · exact ⟨fun _ => provenance_setLiteral (.inr rfl) (word _ rfl), by simp⟩

theorem settle_provenance {slot : Option Nat} {added : List Attribute}
    (additions : ∀ item ∈ added, Provenance colors [] (.attr item))
    (member : token ∈ settle list slot added) : Provenance colors list token := by
  unfold settle at member
  split at member
  · cases slot with
    | none => exact .kept member
    | some index => exact .kept ((AttributeList.collapseBlankAt_sublist _ _).mem member)
  · rcases AttributeList.mem_insertAt member with kept | rfl | ⟨item, among, rfl⟩
    · exact .kept kept
    · exact .space
    · exact .trans (by simp) (additions item among)

theorem separate_provenance (member : token ∈ list.separate) : Provenance colors list token := by
  rcases AttributeList.mem_separate member with kept | rfl
  · exact .kept kept
  · exact .space

theorem place_provenance {slot : Option Nat} {implied : Option Resolution} {hint : Option Text}
    (variants : ∀ text ∈ implied.bind (·.variant), text ∈ colors.words)
    (schemes : ∀ text ∈ (implied.map (·.scheme)).or hint, text ∈ colors.words)
    (member : token ∈ (place list slot implied hint).list) : Provenance colors list token := by
  have variant := placeVariant_provenance list hint.isSome variants
  unfold place at member
  generalize placeVariant list (implied.bind (·.variant)) hint.isSome = placed at member variant
  obtain ⟨placed, variants⟩ := placed
  have scheme := placeScheme_provenance placed schemes
  dsimp only at member
  generalize placeScheme placed ((implied.map (·.scheme)).or hint) = stage at member scheme
  refine .trans variant.1 (.trans scheme.1 (.trans (fun token member => ?_)
    (separate_provenance member)))
  refine settle_provenance (fun item added => ?_) member
  exact (List.mem_append.1 added).elim (variant.2 item) (scheme.2 item)

/-- Every token of the mapped list was there, is a single space, or is an attribute that the tables
wrote. -/
theorem mapList_provenance (member : token ∈ (colors.mapList list).list) :
    Provenance colors list token := by
  have hint : ∀ scheme ∈ (colors.splitVariant list).2, scheme ∈ colors.words :=
    fun _ => splitVariant_word
  refine .trans (fun _ => splitVariant_provenance) ?_
  revert member
  unfold mapList
  dsimp only
  split
  · exact place_provenance (by simp) hint
  · rename_i index found
    have erased : ∀ token ∈ (colors.splitVariant list).1.list.eraseIdx index,
        Provenance colors (colors.splitVariant list).1.list token :=
      fun token member => .kept ((List.eraseIdx_sublist _ _).mem member)
    split
    · rename_i text _
      have known := resolve_known colors text
      refine fun member => .trans erased (place_provenance ?_ ?_ member)
      · simpa using known.2
      · simpa using known.1
    · exact separate_provenance
    · refine fun member => .trans (fun token member => ?_) (place_provenance ?_ ?_ member)
      · exact erased token ((AttributeList.collapseBlankAt_sublist _ _).mem member)
      · simp
      · exact hint

end

end Retag.ColorTables
