import Netblock.Proofs.DottedQuadGrammar
import Netblock.Text.ColonHex
/-!
# The grammar of colon-separated groups

Which eight words a text of hex groups spells, with a shorthand for zeros and a dotted quad at
its end. As with dotted quads, the reader accepts the texts of the grammar only, and reads what
they spell.
-/

set_option autoImplicit false

namespace Netblock.Text

theorem Hex.read?_eq_some_iff {text : List Char} {value : Nat} :
    Hex.read? text = some value ↔
      text ≠ [] ∧ (∀ c ∈ text, Hex.isDigit c = true) ∧
        Positional.decode 16 (text.filterMap Hex.digit?) = value := by
  simp [Hex.read?, and_assoc]

theorem Hex.digit?_lt {c : Char} {digit : Nat} (found : Hex.digit? c = some digit) :
    digit < 16 :=
  (Hex.digit?_eq_some_iff.mp found).1

theorem Hex.decode_filterMap_lt (text : List Char) :
    Positional.decode 16 (text.filterMap Hex.digit?) <
      16 ^ (text.filterMap Hex.digit?).length := by
  apply Positional.decode_lt
  intro digit member
  obtain ⟨c, _, found⟩ := List.mem_filterMap.mp member
  exact Hex.digit?_lt found

namespace ColonHex

/-- One to four hex digits that spell a word. -/
structure SpellsWord (group : List Char) (word : Nat) : Prop where
  nonempty : group ≠ []
  length_le : group.length ≤ 4
  digits : ∀ c ∈ group, Hex.isDigit c = true
  value_eq : Positional.decode 16 (group.filterMap Hex.digit?) = word

/-- The words of some groups, and whether there is a dotted quad among them. A dotted quad is a
last group that spells two words, and needs a place where one may stand. -/
inductive SpellsWords : Bool → List (List Char) → List Nat → Bool → Prop where
  | nil {mayEndDotted} : SpellsWords mayEndDotted [] [] false
  | hex {mayEndDotted group word rest words dotted} :
      SpellsWord group word → SpellsWords mayEndDotted rest words dotted →
      SpellsWords mayEndDotted (group :: rest) (word :: words) dotted
  | quad {group a b c d} :
      DottedQuad.Spells 4 group [a, b, c, d] →
      SpellsWords true [group] [Octets.toNat [a, b], Octets.toNat [c, d]] true

/-- Groups joined by colons, possibly none. -/
def SpellsSide (mayEndDotted : Bool) (side : List Char) (words : List Nat) (dotted : Bool) :
    Prop :=
  ∃ groups, side = [':'].intercalate groups ∧ SpellsWords mayEndDotted groups words dotted

/-- Eight words in full, or with a shorthand for the zeros between two sides. -/
inductive Spells : List Char → List Nat → Bool → Prop where
  | full {text words dotted} :
      SpellsSide true text words dotted → words.length = 8 → Spells text words dotted
  | shorthand {left right leftWords rightWords dotted} :
      SpellsSide false left leftWords false → SpellsSide true right rightWords dotted →
      leftWords.length + rightWords.length ≤ 7 →
      Spells (left ++ ':' :: ':' :: right)
        (leftWords ++ List.replicate (8 - (leftWords.length + rightWords.length)) 0 ++
          rightWords)
        dotted

theorem SpellsWord.not_mem {group : List Char} {word : Nat} (spelled : SpellsWord group word)
    {c : Char} (other : Hex.isDigit c = false) : c ∉ group := by
  intro member
  have digit := spelled.digits c member
  rw [other] at digit
  cases digit

theorem SpellsWord.lt {group : List Char} {word : Nat} (spelled : SpellsWord group word) :
    word < 65536 := by
  have length_le : (group.filterMap Hex.digit?).length ≤ 4 :=
    Nat.le_trans (List.length_filterMap_le _ _) spelled.length_le
  calc word
      = Positional.decode 16 (group.filterMap Hex.digit?) := spelled.value_eq.symm
    _ < 16 ^ (group.filterMap Hex.digit?).length := Hex.decode_filterMap_lt group
    _ ≤ 16 ^ 4 := Nat.pow_le_pow_right (by decide) length_le

theorem toNat_pair_lt (high low : Octet) : Octets.toNat [high, low] < 65536 := by
  simpa using Octets.toNat_lt [high, low]

theorem encode_toNat_quad (a b c d : Octet) :
    Positional.encode 65536 2 (Octets.toNat [a, b, c, d]) =
      [Octets.toNat [a, b], Octets.toNat [c, d]] := by
  have value_eq : Octets.toNat [a, b, c, d] =
      Positional.decode 65536 [Octets.toNat [a, b], Octets.toNat [c, d]] := by
    have joined := Octets.toNat_append [a, b] [c, d]
    simpa [Positional.decode] using joined
  rw [value_eq]
  refine Positional.encode_decode rfl ?_
  intro digit member
  rcases List.mem_pair.mp member with rfl | rfl
  · exact toNat_pair_lt a b
  · exact toNat_pair_lt c d

theorem readGroup_hex {mayBeDotted : Bool} {group : List Char} {word : Nat}
    (spelled : SpellsWord group word) : readGroup mayBeDotted group = .ok ⟨[word], false⟩ := by
  have noDot : '.' ∉ group := spelled.not_mem rfl
  have found : Hex.read? group = some word :=
    Hex.read?_eq_some_iff.mpr ⟨spelled.nonempty, spelled.digits, spelled.value_eq⟩
  simp [readGroup, noDot, found, spelled.length_le]

theorem readGroup_quad {group : List Char} {a b c d : Octet}
    (spelled : DottedQuad.Spells 4 group [a, b, c, d]) :
    readGroup true group =
      .ok ⟨[Octets.toNat [a, b], Octets.toNat [c, d]], true⟩ := by
  obtain ⟨quad, accepted, value_eq⟩ := spelled.exists_read
  unfold readGroup
  rw [if_pos spelled.mem_dot, if_pos rfl, accepted, ← encode_toNat_quad, ← value_eq]
  rfl

theorem readGroup_eq_ok {mayBeDotted : Bool} {group : List Char} {spelling : Spelling}
    (accepted : readGroup mayBeDotted group = .ok spelling) :
    (∃ word, SpellsWord group word ∧ spelling = ⟨[word], false⟩) ∨
      (mayBeDotted = true ∧ ∃ a b c d, DottedQuad.Spells 4 group [a, b, c, d] ∧
        spelling = ⟨[Octets.toNat [a, b], Octets.toNat [c, d]], true⟩) := by
  unfold readGroup at accepted
  split at accepted
  · split at accepted
    · next mayBe =>
        right
        refine ⟨mayBe, ?_⟩
        obtain ⟨quad, read, _⟩ := bind_eq_ok_iff.mp accepted
        obtain ⟨octets, spelled, _⟩ := (DottedQuad.read_eq_ok_iff (by decide)).mp read
        obtain ⟨a, b, c, d, rfl⟩ : ∃ a b c d, octets = [a, b, c, d] := by
          have ⟨_, _, _, enough, atMostFour⟩ := spelled
          exact List.length_eq_four.mp (by omega)
        have known := readGroup_quad spelled
        unfold readGroup at known
        rw [if_pos spelled.mem_dot, if_pos rfl] at known
        rw [known] at accepted
        cases accepted
        exact ⟨a, b, c, d, spelled, rfl⟩
    · cases accepted
  · left
    split at accepted
    · next word found =>
        split at accepted
        · next length_le =>
            cases accepted
            obtain ⟨nonempty, digits, value_eq⟩ := Hex.read?_eq_some_iff.mp found
            exact ⟨word, ⟨nonempty, length_le, digits, value_eq⟩, rfl⟩
        · cases accepted
    · cases accepted

theorem readGroups_eq_ok_iff {mayEndDotted : Bool} {groups : List (List Char)}
    {words : List Nat} {dotted : Bool} :
    readGroups mayEndDotted groups = .ok ⟨words, dotted⟩ ↔
      SpellsWords mayEndDotted groups words dotted := by
  constructor
  · intro accepted
    induction groups generalizing words dotted with
    | nil =>
        cases accepted
        exact .nil
    | cons group rest ih =>
        obtain ⟨first, readFirst, continued⟩ := bind_eq_ok_iff.mp accepted
        obtain ⟨others, readOthers, joined⟩ := bind_eq_ok_iff.mp continued
        cases joined
        have spelledOthers := ih readOthers
        rcases readGroup_eq_ok readFirst with ⟨word, spelled, rfl⟩ | ⟨mayBe, quad⟩
        · exact .hex spelled spelledOthers
        · obtain ⟨a, b, c, d, spelled, rfl⟩ := quad
          obtain ⟨mayEnd, lastGroup⟩ := Bool.and_eq_true_iff.mp mayBe
          cases List.isEmpty_iff.mp lastGroup
          cases mayEnd
          cases readOthers
          exact .quad spelled
  · intro spelled
    induction spelled with
    | nil => rfl
    | hex first _ ih =>
        rw [readGroups, readGroup_hex first]
        exact bind_eq_ok_iff.mpr ⟨_, rfl, bind_eq_ok_iff.mpr ⟨_, ih, rfl⟩⟩
    | quad first =>
        rw [readGroups, List.isEmpty_nil, Bool.and_true, readGroup_quad first]
        rfl

theorem SpellsWords.group_ok {mayEndDotted : Bool} {groups : List (List Char)}
    {words : List Nat} {dotted : Bool} (spelled : SpellsWords mayEndDotted groups words dotted) :
    ∀ group ∈ groups, group ≠ [] ∧ ':' ∉ group := by
  induction spelled with
  | nil =>
      intro group member
      cases member
  | hex first _ ih =>
      intro group member
      rcases List.mem_cons.mp member with rfl | later
      · exact ⟨first.nonempty, first.not_mem rfl⟩
      · exact ih group later
  | quad only =>
      intro group member
      obtain rfl := List.mem_singleton.mp member
      exact ⟨List.ne_nil_of_mem only.mem_dot, only.not_mem_colon⟩

theorem SpellsWords.lt {mayEndDotted : Bool} {groups : List (List Char)} {words : List Nat}
    {dotted : Bool} (spelled : SpellsWords mayEndDotted groups words dotted) :
    ∀ word ∈ words, word < 65536 := by
  induction spelled with
  | nil =>
      intro word member
      cases member
  | hex first _ ih =>
      intro word member
      rcases List.mem_cons.mp member with rfl | later
      · exact first.lt
      · exact ih word later
  | quad only =>
      intro word member
      rcases List.mem_pair.mp member with rfl | rfl
      · exact toNat_pair_lt _ _
      · exact toNat_pair_lt _ _

theorem SpellsWords.dotted_eq_false {mayEndDotted : Bool} {groups : List (List Char)}
    {words : List Nat} {dotted : Bool} (spelled : SpellsWords mayEndDotted groups words dotted)
    (mayNot : mayEndDotted = false) : dotted = false := by
  induction spelled with
  | nil => rfl
  | hex _ _ ih => exact ih mayNot
  | quad _ => cases mayNot

theorem readSide_eq_ok_iff {mayEndDotted : Bool} {side : List Char} {words : List Nat}
    {dotted : Bool} :
    readSide mayEndDotted side = .ok ⟨words, dotted⟩ ↔
      SpellsSide mayEndDotted side words dotted := by
  unfold readSide
  constructor
  · intro accepted
    split at accepted
    · next empty =>
        cases accepted
        exact ⟨[], empty, .nil⟩
    · dsimp only at accepted
      split at accepted
      · cases accepted
      · exact ⟨_, (List.intercalate_splitOn ':').symm, readGroups_eq_ok_iff.mp accepted⟩
  · intro spelled
    obtain ⟨groups, rfl, spelledWords⟩ := spelled
    have wellFormed := spelledWords.group_ok
    cases groups with
    | nil =>
        cases spelledWords
        rfl
    | cons group rest =>
        have nonempty : [':'].intercalate (group :: rest) ≠ [] := by
          have groupNonempty := (wellFormed group (by simp)).1
          obtain ⟨c, _, tail, joined⟩ := exists_intercalate_eq_cons groupNonempty rest
          rw [joined]
          exact List.cons_ne_nil c tail
        have split : ([':'].intercalate (group :: rest)).splitOn ':' = group :: rest :=
          List.splitOn_intercalate ':' (fun other member => (wellFormed other member).2)
            (List.cons_ne_nil group rest)
        have noneEmpty : [] ∉ group :: rest := fun member => (wellFormed [] member).1 rfl
        rw [if_neg nonempty, split]
        dsimp only
        rw [if_neg noneEmpty]
        exact readGroups_eq_ok_iff.mpr spelledWords

/-!
### The shorthand
-/

theorem cutShorthand?_cons_of_ne {c : Char} {rest : List Char} (other : c ≠ ':') :
    cutShorthand? (c :: rest) =
      (cutShorthand? rest).map fun (before, after) => (c :: before, after) := by
  rw [cutShorthand?]
  intro _ colon
  exact absurd colon other

theorem cutShorthand?_colon_cons {c : Char} {rest : List Char} (other : c ≠ ':') :
    cutShorthand? (':' :: c :: rest) =
      (cutShorthand? (c :: rest)).map fun (before, after) => (':' :: before, after) := by
  rw [cutShorthand?]
  intro _ _ shape
  cases shape
  exact absurd rfl other

theorem eq_append_of_cutShorthand? {text before after : List Char}
    (cut : cutShorthand? text = some (before, after)) :
    text = before ++ ':' :: ':' :: after := by
  fun_induction cutShorthand? text generalizing before with
  | case1 rest =>
      cases cut
      rfl
  | case2 c rest _ ih =>
      obtain ⟨⟨restBefore, restAfter⟩, restCut, pair_eq⟩ := Option.map_eq_some_iff.mp cut
      cases pair_eq
      rw [ih restCut]
      rfl
  | case3 => cases cut

theorem cutShorthand?_append_of_not_mem {group : List Char} (noColon : ':' ∉ group)
    (suffix : List Char) :
    cutShorthand? (group ++ suffix) =
      (cutShorthand? suffix).map fun (before, after) => (group ++ before, after) := by
  induction group with
  | nil => simp
  | cons c group ih =>
      simp only [List.mem_cons, not_or] at noColon
      obtain ⟨other, noColonRest⟩ := noColon
      rw [List.cons_append, cutShorthand?_cons_of_ne (Ne.symm other), ih noColonRest,
        Option.map_map]
      rfl

/-- No shorthand begins within groups that are not empty and hold no colon. -/
theorem cutShorthand?_intercalate_append {groups : List (List Char)}
    (wellFormed : ∀ group ∈ groups, group ≠ [] ∧ ':' ∉ group) (suffix : List Char) :
    cutShorthand? ([':'].intercalate groups ++ suffix) =
      (cutShorthand? suffix).map fun (before, after) =>
        ([':'].intercalate groups ++ before, after) := by
  induction groups with
  | nil => simp
  | cons group rest ih =>
      have noColon : ':' ∉ group := (wellFormed group (by simp)).2
      have restCut := ih fun other member => wellFormed other (by simp [member])
      cases rest with
      | nil =>
          rw [List.intercalate_singleton]
          exact cutShorthand?_append_of_not_mem noColon suffix
      | cons next rest =>
          -- What follows the colon after `group` is the first character of `next`.
          obtain ⟨nextNonempty, nextNoColon⟩ := wellFormed next (by simp)
          obtain ⟨c, member, tail, joined⟩ := exists_intercalate_eq_cons nextNonempty rest
          have other : c ≠ ':' := ne_of_mem_of_not_mem member nextNoColon
          rw [List.intercalate_cons_cons, List.append_assoc, List.append_assoc,
            cutShorthand?_append_of_not_mem noColon]
          rw [joined] at restCut ⊢
          rw [List.cons_append] at restCut
          rw [List.singleton_append, List.cons_append, cutShorthand?_colon_cons other, restCut,
            Option.map_map, Option.map_map]
          refine congrFun (congrArg Option.map ?_) _
          funext pair
          simp

/-!
### Whole texts
-/

theorem Spells.length_eq {text : List Char} {words : List Nat} {dotted : Bool}
    (spelled : Spells text words dotted) : words.length = 8 := by
  cases spelled with
  | full _ length_eq => exact length_eq
  | shorthand _ _ atMostSeven =>
      simp only [List.length_append, List.length_replicate]
      omega

theorem Spells.lt {text : List Char} {words : List Nat} {dotted : Bool}
    (spelled : Spells text words dotted) : ∀ word ∈ words, word < 65536 := by
  cases spelled with
  | full whole _ =>
      obtain ⟨_, _, spelledWords⟩ := whole
      exact spelledWords.lt
  | shorthand left right _ =>
      obtain ⟨_, _, leftWords⟩ := left
      obtain ⟨_, _, rightWords⟩ := right
      intro word member
      rcases List.mem_append.mp member with given | inRight
      · rcases List.mem_append.mp given with inLeft | zero
        · exact leftWords.lt word inLeft
        · rw [List.eq_of_mem_replicate zero]
          decide
      · exact rightWords.lt word inRight

theorem SpellsSide.not_shorthand {mayEndDotted : Bool} {side : List Char} {words : List Nat}
    {dotted : Bool} (spelled : SpellsSide mayEndDotted side words dotted) :
    cutShorthand? side = none := by
  obtain ⟨groups, rfl, spelledWords⟩ := spelled
  have cut := cutShorthand?_intercalate_append spelledWords.group_ok []
  rwa [List.append_nil] at cut

theorem SpellsSide.cutShorthand?_append {mayEndDotted : Bool} {side : List Char}
    {words : List Nat} {dotted : Bool} (spelled : SpellsSide mayEndDotted side words dotted)
    (after : List Char) : cutShorthand? (side ++ ':' :: ':' :: after) = some (side, after) := by
  obtain ⟨groups, rfl, spelledWords⟩ := spelled
  rw [cutShorthand?_intercalate_append spelledWords.group_ok]
  simp [cutShorthand?]

theorem exists_spells_of_read_eq_ok {text : List Char} {bits : BitVec 128} {dotted : Bool}
    (accepted : read text = .ok (bits, dotted)) :
    ∃ words, Spells text words dotted ∧
      bits = BitVec.ofNat 128 (Positional.decode 65536 words) := by
  unfold read at accepted
  split at accepted
  · obtain ⟨whole, readWhole, counted⟩ := bind_eq_ok_iff.mp accepted
    split at counted
    · next eight =>
        cases counted
        exact ⟨whole.words, .full (readSide_eq_ok_iff.mp readWhole) eight, rfl⟩
    · cases counted
  · next before after cut =>
      split at accepted
      · cases accepted
      · obtain ⟨left, readLeft, continued⟩ := bind_eq_ok_iff.mp accepted
        obtain ⟨right, readRight, counted⟩ := bind_eq_ok_iff.mp continued
        dsimp only at counted
        split at counted
        · next atMostSeven =>
            cases counted
            have spelledLeft := readSide_eq_ok_iff.mp readLeft
            have spelledRight := readSide_eq_ok_iff.mp readRight
            -- A dotted quad may stand in the right side only, whatever the reader combines.
            have leftPlain : left.dotted = false := by
              obtain ⟨_, _, leftWords⟩ := spelledLeft
              exact leftWords.dotted_eq_false rfl
            rw [leftPlain] at spelledLeft
            rw [leftPlain, Bool.false_or, eq_append_of_cutShorthand? cut]
            exact ⟨_, .shorthand spelledLeft spelledRight atMostSeven, rfl⟩
        · cases counted

theorem Spells.read_eq_ok {text : List Char} {words : List Nat} {dotted : Bool}
    (spelled : Spells text words dotted) :
    read text = .ok (BitVec.ofNat 128 (Positional.decode 65536 words), dotted) := by
  unfold read
  cases spelled with
  | full whole eight =>
      rw [whole.not_shorthand]
      refine bind_eq_ok_iff.mpr ⟨_, readSide_eq_ok_iff.mpr whole, ?_⟩
      exact if_pos eight
  | shorthand left right atMostSeven =>
      rw [left.cutShorthand?_append]
      dsimp only
      rw [right.not_shorthand, if_neg (by simp)]
      refine bind_eq_ok_iff.mpr ⟨_, readSide_eq_ok_iff.mpr left, ?_⟩
      refine bind_eq_ok_iff.mpr ⟨_, readSide_eq_ok_iff.mpr right, ?_⟩
      exact if_pos atMostSeven

theorem Spells.eq_ofNat_iff {text : List Char} {words : List Nat} {dotted : Bool}
    (spelled : Spells text words dotted) {bits : BitVec 128} :
    Octets.ofNat 16 bits.toNat = words.flatMap (Octets.ofNat 2) ↔
      bits = BitVec.ofNat 128 (Positional.decode 65536 words) := by
  have length_eq : (words.flatMap (Octets.ofNat 2)).length = 16 := by
    rw [Octets.length_flatMap_ofNat, spelled.length_eq]
  rw [← Octets.toNat_flatMap_ofNat spelled.lt]
  exact Octets.ofNat_toNat_eq_iff length_eq rfl

theorem read_eq_ok_iff {text : List Char} {bits : BitVec 128} {dotted : Bool} :
    read text = .ok (bits, dotted) ↔
      ∃ words, Spells text words dotted ∧
        Octets.ofNat 16 bits.toNat = words.flatMap (Octets.ofNat 2) := by
  constructor
  · intro accepted
    obtain ⟨words, spelled, bits_eq⟩ := exists_spells_of_read_eq_ok accepted
    exact ⟨words, spelled, spelled.eq_ofNat_iff.mpr bits_eq⟩
  · intro grammatical
    obtain ⟨words, spelled, shown⟩ := grammatical
    rw [spelled.eq_ofNat_iff.mp shown]
    exact spelled.read_eq_ok

end ColonHex

end Netblock.Text
