import DeclarationDocs.Proofs.Codecs.RoundTrip
import DeclarationDocs.Proofs.Json.Complaints

/-!
# Nodes in well-formed documents

A node is stored before its members are decoded, so how deep it may be depends on where it stands. A
node that fits where there is less room is read the same way where there is more. What the decoder
has against it is a matter of its content.

Main statements: `Node.decode_ne_malformed` and `Node.decode_of_fits`, and what sorting the members
of a node does, `Node.sortMembers_cons_cases`.
-/

namespace DeclarationDocs

open Json

/-! ## Complaints about declarations -/

theorem Reference.explains : codec.Explains :=
  Codec.along_explains Codec.text_explains mk text

theorem Platform.explains : codec.Explains :=
  Codec.along_explains Codec.text_explains mk name

namespace TraitMap

variable {α : Type} {codec : Codec α}

theorem readMembers_explains (law : codec.Explains) {room : Nat} {members : List (Key × Outline)}
    (fitting : Outline.membersFit room members = true) (map : TraitMap α) :
    readMembers codec .stored members map ≠ .error .malformed := by
  induction members generalizing map with
  | nil => exact ok_ne_malformed map
  | cons member members ih =>
    obtain ⟨⟨⟨name, same⟩, first⟩, others⟩ :=
      List.forall_mem_cons.mp (Outline.membersFit_iff.mp fitting)
    obtain ⟨key, outline⟩ := member
    obtain rfl : key = .named name := same
    exact bind_ne_malformed (law first) fun value _ => ih (Outline.membersFit_iff.mpr others) _

theorem explains (law : codec.Explains) : (TraitMap.codec codec).Explains := by
  intro room outline fitting
  cases outline with
  | object members closed =>
    obtain _ | room := room
    · cases fitting
    · rw [Outline.fits, Bool.and_eq_true] at fitting
      obtain ⟨fitting, rfl⟩ := fitting
      exact bind_ne_malformed (readMembers_explains law fitting ∅) fun _ _ =>
        ok_ne_malformed _
  | null | boolean | number | text | array | broken => exact Codec.mismatch_explains fitting .map

end TraitMap

theorem SourceLanguage.explains : record.codec.Explains :=
  Record.explains ⟨Codec.text_explains, Codec.text_explains, trivial⟩

theorem Fragment.explains : record.codec.Explains :=
  Record.explains ⟨Codec.variants_explains FragmentKind.all FragmentKind.name, Codec.text_explains,
    Codec.optional_explains Codec.text_explains, trivial⟩

theorem Declaration.explains : record.codec.Explains :=
  Record.explains ⟨Codec.list_explains Fragment.explains, trivial⟩

theorem PlatformDeclaration.explains : record.codec.Explains :=
  Record.explains ⟨Codec.list_explains (Codec.optional_explains Platform.explains),
    Declaration.explains, trivial⟩

theorem OverloadGroup.explains : record.codec.Explains :=
  Record.explains ⟨Codec.list_explains Reference.explains, Codec.index_explains, trivial⟩

theorem Symbol.explains : record.codec.Explains :=
  Record.explains ⟨Reference.explains, Codec.optional_explains Codec.text_explains,
    Codec.text_explains, SourceLanguage.explains,
    TraitMap.explains (Codec.list_explains PlatformDeclaration.explains),
    TraitMap.explains OverloadGroup.explains, trivial⟩

theorem Article.explains : record.codec.Explains :=
  Record.explains ⟨Reference.explains, Codec.text_explains, trivial⟩

namespace Node

/-! ## Complaints about nodes -/

theorem Kind.decode_ne_malformed {room : Nat} {outline : Outline}
    (fitting : outline.fits room = true) : decode outline ≠ .error .malformed := by
  unfold decode
  split
  · exact Codec.variant?_explains all name _
  · exact Codec.mismatch_explains fitting .variantName

theorem ofStored_ne_malformed (kind : Kind) {room : Nat} {stored : Outline}
    (fitting : stored.fits room = true) : ofStored kind stored ≠ .error .malformed := by
  cases kind with
  | symbol => exact map_ne_malformed (Symbol.explains fitting) Node.symbol
  | article => exact map_ne_malformed (Article.explains fitting) Node.article

theorem sortMembers_ne_malformed {room : Nat} {members : List (Key × Outline)}
    (fitting : Outline.membersFit room members = true) (kind : Option Kind) :
    sortMembers room members kind ≠ .error .malformed := by
  induction members generalizing kind with
  | nil => exact ok_ne_malformed _
  | cons member members ih =>
    obtain ⟨⟨⟨name, same⟩, first⟩, others⟩ :=
      List.forall_mem_cons.mp (Outline.membersFit_iff.mp fitting)
    obtain ⟨key, value⟩ := member
    obtain rfl : key = .named name := same
    have behind := ih (Outline.membersFit_iff.mpr others)
    by_cases same : name = tag
    · rw [sortMembers, if_pos same]
      split
      · exact content_ne_malformed _
      · exact bind_ne_malformed (Kind.decode_ne_malformed first) fun kind _ => behind (some kind)
    · rw [sortMembers, if_neg same, if_pos first]
      exact bind_ne_malformed (behind kind) fun _ _ => ok_ne_malformed _

/-- Sorting in a member: it is the kind, the first one, or it is stored. -/
theorem sortMembers_cons_cases {room : Nat} {member : Key × Outline}
    {members : List (Key × Outline)} {kind : Option Kind}
    {sorted : Option Kind × List (Key × Outline)}
    (done : sortMembers room (member :: members) kind = .ok sorted) :
    (member.1 = .named tag ∧ kind = none ∧ ∃ read, Kind.decode member.2 = .ok read
        ∧ sortMembers room members (some read) = .ok sorted)
      ∨ (member.1 ≠ .named tag ∧ ∃ rest, sortMembers room members kind = .ok rest
        ∧ sorted = (rest.1, member :: rest.2)) := by
  obtain ⟨key, value⟩ := member
  cases key with
  | unreadable => cases done
  | named name =>
    rw [sortMembers] at done
    split at done
    next same =>
      split at done
      next => cases done
      next fresh =>
        obtain ⟨read, decoded, done⟩ := exists_of_bind_ok done
        exact .inl ⟨congrArg Key.named same, by simpa using fresh, read, decoded, done⟩
    next other =>
      split at done
      next =>
        obtain ⟨rest, more, same⟩ := exists_of_bind_ok done
        exact .inr ⟨fun same => other (Key.named.inj same), rest, more,
          (Except.ok.inj same).symm⟩
      next => cases done

/-- What is stored of a node are its members without the kind. -/
theorem stored_of_sortMembers {room : Nat} {members : List (Key × Outline)} {kind : Option Kind}
    {sorted : Option Kind × List (Key × Outline)}
    (done : sortMembers room members kind = .ok sorted) :
    sorted.2 = members.filter (·.1 ≠ .named tag) := by
  induction members generalizing kind sorted with
  | nil =>
    cases done
    rfl
  | cons member members ih =>
    rcases sortMembers_cons_cases done with ⟨same, -, read, -, more⟩ | ⟨other, rest, more, rfl⟩
    · rw [List.filter_cons_of_neg (by simpa using same)]
      exact ih more
    · rw [List.filter_cons_of_pos (by simpa using other), ih more]

/-- Behind the kind there is no other one. -/
theorem untagged_of_sortMembers {room : Nat} {members : List (Key × Outline)} {kind : Kind}
    {sorted : Option Kind × List (Key × Outline)}
    (done : sortMembers room members (some kind) = .ok sorted) :
    ∀ member ∈ members, member.1 ≠ .named tag := by
  induction members generalizing sorted with
  | nil => exact List.forall_mem_nil _
  | cons member members ih =>
    rcases sortMembers_cons_cases done with ⟨-, fresh, -⟩ | ⟨other, rest, more, -⟩
    · cases fresh
    · exact List.forall_mem_cons.mpr ⟨other, ih more⟩

/-- Members of other names leave the kind as it is. -/
theorem kind_of_untagged {room : Nat} {members : List (Key × Outline)} {kind : Option Kind}
    {sorted : Option Kind × List (Key × Outline)}
    (untagged : ∀ member ∈ members, member.1 ≠ .named tag)
    (done : sortMembers room members kind = .ok sorted) : sorted.1 = kind := by
  induction members generalizing sorted with
  | nil =>
    cases done
    rfl
  | cons member members ih =>
    obtain ⟨first, others⟩ := List.forall_mem_cons.mp untagged
    rcases sortMembers_cons_cases done with ⟨same, -⟩ | ⟨-, rest, more, rfl⟩
    · exact absurd same first
    · show rest.1 = kind
      exact ih others more

/-- The kind is the one that is named among the members. -/
theorem kind_of_sortMembers {room : Nat} {members : List (Key × Outline)} {kind : Kind}
    {sorted : Option Kind × List (Key × Outline)}
    (listed : (.named tag, .text (some kind.name)) ∈ members)
    (done : sortMembers room members none = .ok sorted) : sorted.1 = some kind := by
  induction members generalizing sorted with
  | nil => cases listed
  | cons member members ih =>
    rcases sortMembers_cons_cases done with ⟨-, -, read, decoded, more⟩ | ⟨other, rest, more, rfl⟩
    · have untagged := untagged_of_sortMembers more
      rcases List.mem_cons.mp listed with rfl | later
      · rw [Kind.decode_name] at decoded
        cases decoded
        exact kind_of_untagged untagged more
      · exact absurd rfl (untagged _ later)
    · rcases List.mem_cons.mp listed with rfl | later
      · exact absurd rfl other
      · show rest.1 = some kind
        exact ih later more

theorem decode_ne_malformed {room : Nat} {outline : Outline} (fitting : outline.fits room = true) :
    decode room outline ≠ .error .malformed := by
  cases outline with
  | object members closed =>
    obtain _ | room := room
    · cases fitting
    · rw [Outline.fits, Bool.and_eq_true] at fitting
      obtain ⟨fitting, rfl⟩ := fitting
      refine bind_ne_malformed (sortMembers_ne_malformed fitting none) fun sorted done => ?_
      obtain ⟨kind, stored⟩ := sorted
      cases kind with
      | none => exact content_ne_malformed _
      | some kind =>
        have stays : Outline.membersFit room stored = true := by
          rw [show stored = _ from stored_of_sortMembers done]
          exact Outline.membersFit_iff.mpr fun member listed =>
            Outline.membersFit_iff.mp fitting member (List.mem_filter.mp listed).1
        have fits : (Outline.object stored true).fits (room + 1) = true := by
          rw [Outline.fits, stays, Bool.and_self]
        exact ofStored_ne_malformed kind fits
  | array items closed =>
    obtain _ | room := room
    · cases fitting
    · rw [Outline.fits, Bool.and_eq_true] at fitting
      obtain ⟨fitting, rfl⟩ := fitting
      cases items with
      | nil => exact content_ne_malformed _
      | cons first items =>
        obtain ⟨here, behind⟩ := List.forall_mem_cons.mp (Outline.allFit_iff.mp fitting)
        have behind := Outline.allFit_iff.mpr behind
        refine bind_ne_malformed (Kind.decode_ne_malformed here) fun kind _ => ?_
        rw [Bool.true_and, Nat.add_sub_cancel, if_pos behind]
        have fits : (Outline.array items true).fits (room + 1) = true := by
          rw [Outline.fits, behind, Bool.and_self]
        exact ofStored_ne_malformed kind fits
  | null | boolean | number | text | broken => exact Codec.mismatch_explains fitting _

/-! ## Room -/

theorem sortMembers_of_fits {depth room : Nat} (le : depth ≤ room) {members : List (Key × Outline)}
    (fitting : Outline.membersFit depth members = true) (kind : Option Kind) :
    sortMembers room members kind = sortMembers depth members kind := by
  induction members generalizing kind with
  | nil => rfl
  | cons member members ih =>
    obtain ⟨⟨⟨name, same⟩, first⟩, others⟩ :=
      List.forall_mem_cons.mp (Outline.membersFit_iff.mp fitting)
    obtain ⟨key, value⟩ := member
    obtain rfl : key = .named name := same
    have behind := ih (Outline.membersFit_iff.mpr others)
    simp only [sortMembers, first, Outline.fits_of_le le first, behind]

/-- More room makes no difference to a node that fits. -/
theorem decode_of_fits {depth room : Nat} (le : depth ≤ room) {outline : Outline}
    (fitting : outline.fits depth = true) : decode room outline = decode depth outline := by
  cases outline with
  | object members closed =>
    obtain _ | depth := depth
    · cases fitting
    · obtain ⟨room, rfl⟩ : ∃ r, room = r + 1 := ⟨room - 1, by omega⟩
      rw [Outline.fits, Bool.and_eq_true] at fitting
      have sorted := sortMembers_of_fits (by omega : depth ≤ room) fitting.1 none
      simp only [decode, Nat.add_sub_cancel, sorted]
  | array items closed =>
    obtain _ | depth := depth
    · cases fitting
    · obtain ⟨room, rfl⟩ : ∃ r, room = r + 1 := ⟨room - 1, by omega⟩
      rw [Outline.fits, Bool.and_eq_true] at fitting
      cases items with
      | nil => rfl
      | cons first items =>
        obtain ⟨-, behind⟩ := List.forall_mem_cons.mp (Outline.allFit_iff.mp fitting.1)
        have behind := Outline.allFit_iff.mpr behind
        have wider := Outline.allFit_of_le (by omega : depth ≤ room) behind
        simp only [decode, Nat.add_sub_cancel, behind, wider]
  | null | boolean | number | text | broken => rfl

end Node

end DeclarationDocs
