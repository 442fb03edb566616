import Telemetry.Json.Codec
import Telemetry.Proofs.JsonNumbers

/-!
# Configuration values survive as text

A channel specification, a rule or a complex number is written as an object and
read from any text that is an object with the same members, whatever their
order. Names, severities and signs come back as they were, whichever characters
they hold. A number comes back if its literal is read as the number, which the
reader does not promise for every last digit; NaN and the infinities are written
as null, and null is no number.

Reading is strict where a mistake in a configuration would otherwise pass
unseen: an object for a channel or a rule must have each of its fields once and
no others. Only the message of a rule may be left out. Keys count by the text
that they name, so that an escaped spelling of a field is that field.
-/
namespace Telemetry.Json

/-!
## Records
-/

/-- The value that a text stands for: that of the document which the text is. -/
def decode? {α : Type} (ofJson? : Json → Option α) (source : String) : Option α :=
  (parse? source).bind ofJson?

/-- The document is the other, or an object with the members of the other in
some order. -/
inductive Reordering : Json → Json → Prop where
  | same (document : Json) : Reordering document document
  | members {members others : List (List Char × Json)} (perm : members.Perm others) :
      Reordering (.object members) (.object others)

/-- The members are named if each key has a text. What fails for one key fails
for all, so the recursion is a test of all keys and then a renaming. -/
theorem keyed?_eq (members : List (List Char × Json)) :
    keyed? members =
      if members.all fun member => (text? member.1).isSome then
        some (members.map fun member => ((text? member.1).getD "", member.2))
      else none := by
  induction members with
  | nil => rfl
  | cons member rest inductionHypothesis =>
    obtain ⟨key, value⟩ := member
    rw [keyed?, inductionHypothesis]
    cases named : text? key with
    | none => simp [named]
    | some name =>
      by_cases others : rest.all fun member => (text? member.1).isSome <;> simp [named, others]

/-- What a well-fielded record is, field by field and member by member: no field
twice and, if it is strict, no member that is no field. -/
theorem wellFielded_iff {fields : List String} {strict : Bool} {named : List (String × Json)} :
    wellFielded fields strict named = true ↔
      (∀ field ∈ fields, (named.filter fun member => member.1 = field).length ≤ 1) ∧
        (strict = true → ∀ member ∈ named, member.1 ∈ fields) := by
  cases strict <;> simp [wellFielded]

/-- Whether a record is well fielded does not depend on the order of its
members, since both conditions count or test them. -/
theorem wellFielded_perm (fields : List String) (strict : Bool)
    {named others : List (String × Json)} (perm : named.Perm others) :
    wellFielded fields strict named = wellFielded fields strict others := by
  have counts (field : String) : (named.filter fun member => member.1 = field).length =
      (others.filter fun member => member.1 = field).length := (perm.filter _).length_eq
  simp only [wellFielded, counts, perm.all_eq]

/-- A name that stands at most once is found at the same value in any order.
With two members of the name the first would be found, and the order would
matter. -/
theorem lookup_perm {named others : List (String × Json)} (perm : named.Perm others)
    {field : String} (single : (named.filter fun member => member.1 = field).length ≤ 1) :
    named.lookup field = others.lookup field := by
  have found : (named.filter fun member => member.1 = field).Perm
      (others.filter fun member => member.1 = field) := perm.filter _
  rw [lookup_eq_head?, lookup_eq_head?]
  match shown : named.filter fun member => member.1 = field with
  | [] =>
    rw [shown] at found ⊢
    rw [List.nil_perm.mp found]
  | [member] =>
    rw [shown] at found ⊢
    rw [List.singleton_perm.mp found]
  | _ :: _ :: _ =>
    rw [shown] at single
    simp at single

/-- Members in another order give the same record, as no field occurs twice.
Where one does, both orders are refused. -/
theorem fields?_perm (fields : List String) (strict : Bool)
    {members others : List (List Char × Json)} (perm : members.Perm others) :
    fields? fields strict (.object members) = fields? fields strict (.object others) := by
  have keys : (members.all fun member => (text? member.1).isSome) =
      others.all fun member => (text? member.1).isSome := perm.all_eq
  have named := perm.map fun member => ((text? member.1).getD "", member.2)
  simp only [fields?, keyed?_eq, keys]
  split_ifs
  · simp only [Option.bind_eq_bind, Option.bind_some, ← wellFielded_perm fields strict named]
    split_ifs with fits
    · obtain ⟨singles, _⟩ := wellFielded_iff.mp fits
      apply congrArg some
      apply List.map_congr_left
      exact fun field known => lookup_perm named (singles field known)
    · rfl
  · rfl

/-- A text is written as a string that can be read, with whatever has to be
escaped in it escaped. -/
theorem grammatical_ofText (text : String) : (ofText text).Grammatical :=
  .string (takeString_escape text [])

/-- A record of documents that can be read can be read, its keys being texts. -/
theorem grammatical_record {members : List (String × Json)}
    (each : ∀ member ∈ members, member.2.Grammatical) : (record members).Grammatical := by
  apply Grammatical.object
  · intro member among
    obtain ⟨⟨key, value⟩, _, rfl⟩ := List.mem_map.mp among
    exact takeString_escape key []
  · intro member among
    obtain ⟨⟨key, value⟩, listed, rfl⟩ := List.mem_map.mp among
    exact each (key, value) listed

/-- An object with its members in another order can be read if the object
can. -/
theorem Reordering.grammatical {document other : Json} (reordering : document.Reordering other)
    (grammatical : other.Grammatical) : document.Grammatical := by
  cases reordering with
  | same => exact grammatical
  | members perm =>
    cases grammatical with
    | object keys each =>
      exact .object (fun member among => keys member (perm.mem_iff.mp among))
        fun member among => each member (perm.mem_iff.mp among)

/-- A document that can be read is decoded from its text as it would be decoded
itself, for reading the text gives the document back. -/
theorem Grammatical.decode?_compact {α : Type} (ofJson? : Json → Option α) {document : Json}
    (grammatical : document.Grammatical) : decode? ofJson? document.compact = ofJson? document := by
  rw [decode?, grammatical.parse?_compact, Option.bind_some]

/-- A reader that looks at the fields of an object only reads the text of a
reordered object as it reads the object. -/
theorem Reordering.decode?_compact {α : Type} {ofJson? : Json → Option α} {document other : Json}
    (reordering : document.Reordering other) (grammatical : other.Grammatical)
    (ordered : ∀ {members others : List (List Char × Json)}, members.Perm others →
      ofJson? (.object members) = ofJson? (.object others)) :
    decode? ofJson? document.compact = ofJson? other := by
  rw [(reordering.grammatical grammatical).decode?_compact]
  cases reordering with
  | same => rfl
  | members perm => exact ordered perm

/-- The ways in which members fail to be those of a strict record. -/
inductive Misfielded (fields required : List String) (members : List (List Char × Json)) :
    Prop where
  | unknown {member : List Char × Json} (among : member ∈ members)
      (foreign : ∀ field ∈ fields, text? member.1 ≠ some field)
  | repeated {key : String} (twice : 1 < members.countP fun member => text? member.1 = some key)
  | missing {field : String} (needed : field ∈ required)
      (absent : ∀ member ∈ members, text? member.1 ≠ some field)

/-- What a strict record that is read says about its members: each is one of the
fields, no field comes twice, and a field's value is that of its member. -/
theorem members_of_fields? {fields : List String} {members : List (List Char × Json)}
    {values : List (Option Json)} (read : fields? fields true (.object members) = some values) :
    (∀ member ∈ members, ∃ field ∈ fields, text? member.1 = some field) ∧
      (∀ field ∈ fields, members.countP (fun member => text? member.1 = some field) ≤ 1) ∧
      values = fields.map fun field =>
        (members.find? fun member => text? member.1 = some field).map Prod.snd := by
  simp only [fields?, keyed?_eq, Option.bind_eq_bind] at read
  split_ifs at read with keys
  -- A key without a text makes the whole object unreadable.
  swap
  · cases read
  simp only [Option.bind_some, Option.ite_none_right_eq_some, Option.pure_def,
    Option.some.injEq] at read
  obtain ⟨fits, rfl⟩ := read
  obtain ⟨singles, known⟩ := wellFielded_iff.mp fits
  have named : ∀ member ∈ members, ∀ field,
      (text? member.1).getD "" = field ↔ text? member.1 = some field := by
    intro member among field
    obtain ⟨name, has⟩ := Option.isSome_iff_exists.mp (List.all_eq_true.mp keys member among)
    simp [has]
  have filtered (field : String) :
      ((members.map fun member => ((text? member.1).getD "", member.2)).filter
          fun member => member.1 = field) =
        (members.filter fun member => text? member.1 = some field).map
          fun member => ((text? member.1).getD "", member.2) := by
    rw [List.filter_map]
    apply congrArg
    exact List.filter_congr fun member among => decide_eq_decide.mpr (named member among field)
  refine ⟨?_, ?_, ?_⟩
  · intro member among
    have listed := known rfl _ (List.mem_map_of_mem among)
    exact ⟨_, listed, (named member among _).mp rfl⟩
  · intro field listed
    have single := singles field listed
    rwa [filtered, List.length_map, ← List.countP_eq_length_filter] at single
  · apply List.map_congr_left
    intro field _
    rw [lookup_eq_head?, filtered, List.head?_map, List.head?_filter, Option.map_map]
    rfl

/-- A reader that needs the first fields of a strict record refuses members that
fail. Had it read them, each of the three ways to fail would contradict what
reading says. -/
theorem refused_of_misfielded {α : Type} {ofJson? : Json → Option α} {fields : List String}
    {count : Nat} (complete : ∀ document value, ofJson? document = some value →
      ∃ values, fields? fields true document = some values ∧
        ∀ entry ∈ values.take count, entry.isSome = true)
    {members : List (List Char × Json)}
    (misfielded : Misfielded fields (fields.take count) members) :
    ofJson? (.object members) = none := by
  cases outcome : ofJson? (.object members) with
  | none => rfl
  | some value =>
    exfalso
    obtain ⟨values, read, filled⟩ := complete _ value outcome
    obtain ⟨known, single, rfl⟩ := members_of_fields? read
    cases misfielded with
    | unknown among foreign =>
      obtain ⟨field, listed, named⟩ := known _ among
      exact foreign field listed named
    | @repeated key twice =>
      -- A repeated key is a field, or else unknown.
      by_cases listed : key ∈ fields
      · exact absurd (single key listed) (Nat.not_le.mpr twice)
      · obtain ⟨member, among, named⟩ := List.countP_pos_iff.mp (Nat.zero_lt_of_lt twice)
        obtain ⟨field, other, alsoNamed⟩ := known member among
        have same := Option.some.inj (alsoNamed.symm.trans (of_decide_eq_true named))
        exact listed (same ▸ other)
    | @missing field needed absent =>
      have found := filled _ (by rw [← List.map_take]; exact List.mem_map_of_mem needed)
      rw [Option.isSome_map, List.find?_isSome] at found
      obtain ⟨member, among, named⟩ := found
      exact absent member among (of_decide_eq_true named)

/-- The object without its members of that key. -/
def without (key : String) : Json → Json
  | .object members => .object (members.filter fun member => text? member.1 ≠ some key)
  | document => document

/-- An object that can be read can be read without some of its members. -/
theorem Grammatical.without {document : Json} (grammatical : document.Grammatical) (key : String) :
    (document.without key).Grammatical := by
  cases grammatical with
  | object keys each =>
    exact .object (fun member among => keys member (List.mem_filter.mp among).1)
      fun member among => each member (List.mem_filter.mp among).1
  | null => exact .null
  | bool value => exact .bool value
  | number whole => exact .number whole
  | string closed => exact .string closed
  | array each => exact .array each

/-- The number is read from the literal that it is written as. -/
def ReadsBack (x : Float) : Prop := (ofFloat x).float? = some x

/-- The text of the document gives the value if its numbers read back, and no
value if one of them is NaN or infinite. -/
def Restores {α : Type} (ofJson? : Json → Option α) (document : Json) (value : α)
    (numbers : List Float) : Prop :=
  ((∀ x ∈ numbers, ReadsBack x) → decode? ofJson? document.compact = some value) ∧
    ((∃ x ∈ numbers, x.isFinite = false) → decode? ofJson? document.compact = none)

/-- NaN and the infinities are written as null, which is no number, and so none
of them comes back. -/
theorem float?_ofFloat {x : Float} (unwritten : x.isFinite = false) :
    (ofFloat x).float? = none := by
  rw [ofFloat, if_neg (by simp [unwritten])]
  rfl

/-- A choice among names is read from its name, which is a text that comes back
as it was. -/
theorem choice?_ofText {α : Type} {ofName? : String → Option α} {name : String} {choice : α}
    (named : ofName? name = some choice) : (ofText name).choice? ofName? = some choice := by
  rw [ofText, choice?, text?_escape, Option.bind_some, named]

end Telemetry.Json

namespace Telemetry

open Json

/-!
## Names
-/

/-- An operation is read from its name. -/
@[simp] theorem Operation.ofJson?_toJson (operation : Operation) :
    ofJson? operation.toJson = some operation :=
  choice?_ofText (by cases operation <;> decide)

/-- A severity is read from its name. -/
@[simp] theorem Severity.ofJson?_toJson (severity : Severity) :
    ofJson? severity.toJson = some severity :=
  choice?_ofText (by cases severity <;> decide)

/-- A comparison is read from its sign. -/
@[simp] theorem Comparison.ofJson?_toJson (comparison : Comparison) :
    ofJson? comparison.toJson = some comparison :=
  choice?_ofText (by cases comparison <;> decide)

/-!
## Channel specifications
-/

namespace ChannelSpec

/-- The numbers of a channel specification. -/
def numbers (spec : ChannelSpec) : List Float :=
  [spec.initial, spec.lower, spec.upper, spec.maxStep]

/-- A channel specification is written as a document that can be read. -/
theorem grammatical_toJson (spec : ChannelSpec) : spec.toJson.Grammatical := by
  apply grammatical_record
  simp [grammatical_ofText, grammatical_ofFloat]

/-- It is read from its members in any order. -/
theorem ofJson?_perm {members others : List (List Char × Json)} (perm : members.Perm others) :
    ofJson? (.object members) = ofJson? (.object others) := by
  rw [ofJson?, ofJson?, fields?_perm fields true perm]

/-- A specification is read as it was written, but for its numbers. For these it
depends on what the reader makes of their literals. -/
theorem ofJson?_toJson (spec : ChannelSpec) :
    ofJson? spec.toJson = do
      return ⟨spec.name, ← (ofFloat spec.initial).float?, ← (ofFloat spec.lower).float?,
        ← (ofFloat spec.upper).float?, ← (ofFloat spec.maxStep).float?⟩ := by
  simp [ofJson?, toJson, record, fields?, fields, keyed?, wellFielded, ofText, asText?,
    List.lookup_cons]

/-- A specification comes back if its numbers do, and not at all if one of them
has no literal. -/
theorem restored (spec : ChannelSpec) :
    ((∀ x ∈ spec.numbers, ReadsBack x) → ofJson? spec.toJson = some spec) ∧
      ((∃ x ∈ spec.numbers, x.isFinite = false) → ofJson? spec.toJson = none) := by
  rw [ofJson?_toJson]
  constructor
  · intro each
    simp only [numbers, List.forall_mem_cons, ReadsBack] at each
    obtain ⟨initial, lower, upper, maxStep, _⟩ := each
    simp [initial, lower, upper, maxStep]
  · rintro ⟨x, among, unwritten⟩
    simp only [numbers, List.mem_cons, List.not_mem_nil, or_false] at among
    obtain rfl | rfl | rfl | rfl := among <;> simp [float?_ofFloat unwritten]

/-- Each field must have a value, for the reader has no default for any of
them. -/
theorem complete (document : Json) (spec : ChannelSpec) (read : ofJson? document = some spec) :
    ∃ values, document.fields? fields true = some values ∧
      ∀ entry ∈ values.take 5, entry.isSome = true := by
  unfold ofJson? at read
  split at read
  · exact ⟨_, by assumption, by simp⟩
  · cases read

end ChannelSpec

/-!
## Rules
-/

namespace Rule

/-- A rule is written as a document that can be read. -/
theorem grammatical_toJson (rule : Rule) : rule.toJson.Grammatical := by
  apply grammatical_record
  simp [grammatical_ofText, grammatical_ofFloat, Comparison.toJson, Severity.toJson]

/-- It is read from its members in any order. -/
theorem ofJson?_perm {members others : List (List Char × Json)} (perm : members.Perm others) :
    ofJson? (.object members) = ofJson? (.object others) := by
  rw [ofJson?, ofJson?, fields?_perm fields true perm]

/-- A rule is read as it was written, but for its limit, which is its only
number. -/
theorem ofJson?_toJson (rule : Rule) :
    ofJson? rule.toJson = do
      return ⟨rule.name, rule.channel, rule.comparison, ← (ofFloat rule.limit).float?,
        rule.severity, rule.message⟩ := by
  simp [ofJson?, toJson, record, fields?, fields, keyed?, wellFielded, ofText, asText?,
    List.lookup_cons]

/-- An empty message need not be written, since a message that is left out is
read as the empty one. -/
theorem ofJson?_without_message {rule : Rule} (silent : rule.message = "") :
    ofJson? (rule.toJson.without "message") = ofJson? rule.toJson := by
  rw [ofJson?_toJson, silent]
  simp [without, ofJson?, toJson, record, fields?, fields, keyed?, wellFielded, ofText, asText?,
    List.lookup_cons]

/-- A rule comes back if its limit does, and not at all if the limit has no
literal. -/
theorem restored (rule : Rule) :
    ((∀ x ∈ [rule.limit], ReadsBack x) → ofJson? rule.toJson = some rule) ∧
      ((∃ x ∈ [rule.limit], x.isFinite = false) → ofJson? rule.toJson = none) := by
  rw [ofJson?_toJson]
  constructor
  · intro each
    have limit : (ofFloat rule.limit).float? = some rule.limit := each _ List.mem_cons_self
    simp [limit]
  · rintro ⟨x, among, unwritten⟩
    rw [List.mem_singleton.mp among] at unwritten
    simp [float?_ofFloat unwritten]

/-- Each field but the last must have a value. The last is the message. -/
theorem complete (document : Json) (rule : Rule) (read : ofJson? document = some rule) :
    ∃ values, document.fields? fields true = some values ∧
      ∀ entry ∈ values.take 5, entry.isSome = true := by
  unfold ofJson? at read
  split at read
  · exact ⟨_, by assumption, by simp⟩
  · cases read

end Rule

/-!
## Complex numbers
-/

namespace Complex

/-- A complex number is written as a document that can be read. -/
theorem grammatical_toJson (number : Complex) : number.toJson.Grammatical := by
  apply grammatical_record
  simp [grammatical_ofFloat]

/-- It is read from its members in any order. -/
theorem ofJson?_perm {members others : List (List Char × Json)} (perm : members.Perm others) :
    ofJson? (.object members) = ofJson? (.object others) := by
  rw [ofJson?, ofJson?, fields?_perm fields false perm]

/-- A complex number is read as it was written, but for its two parts. -/
theorem ofJson?_toJson (number : Complex) :
    ofJson? number.toJson = do
      return ⟨← (ofFloat number.re).float?, ← (ofFloat number.im).float?⟩ := by
  simp [ofJson?, toJson, record, fields?, fields, keyed?, wellFielded, List.lookup_cons]

/-- A complex number comes back if its parts do, and not at all if one of them
has no literal. -/
theorem restored (number : Complex) :
    ((∀ x ∈ [number.re, number.im], ReadsBack x) → ofJson? number.toJson = some number) ∧
      ((∃ x ∈ [number.re, number.im], x.isFinite = false) → ofJson? number.toJson = none) := by
  rw [ofJson?_toJson]
  constructor
  · intro each
    simp only [List.forall_mem_cons, ReadsBack] at each
    obtain ⟨re, im, _⟩ := each
    simp [re, im]
  · rintro ⟨x, among, unwritten⟩
    simp only [List.mem_cons, List.not_mem_nil, or_false] at among
    obtain rfl | rfl := among <;> simp [float?_ofFloat unwritten]

end Complex

/-- Configuration values are restored from their texts, with the members in any
order, and for a rule also without an empty message. A text that is an object
with an unknown, a repeated or a missing member is refused, unless it only lacks
the message of a rule.

Each of these documents is grammatical, hence its text is read as the document.
Decoding it depends on the fields alone, each of which stands there once. -/
theorem configurations_restored :
    (∀ (spec : ChannelSpec) (document : Json), document.Reordering spec.toJson →
        Restores ChannelSpec.ofJson? document spec spec.numbers) ∧
      (∀ (rule : Rule) (document : Json),
        document.Reordering rule.toJson ∨
            rule.message = "" ∧ document.Reordering (rule.toJson.without "message") →
          Restores Rule.ofJson? document rule [rule.limit]) ∧
      (∀ (number : Complex) (document : Json), document.Reordering number.toJson →
        Restores Complex.ofJson? document number [number.re, number.im]) ∧
      (∀ operation : Operation,
        decode? Operation.ofJson? operation.toJson.compact = some operation) ∧
      (∀ severity : Severity, decode? Severity.ofJson? severity.toJson.compact = some severity) ∧
      (∀ comparison : Comparison,
        decode? Comparison.ofJson? comparison.toJson.compact = some comparison) ∧
      ∀ (source : String) (members : List (List Char × Json)),
        parse? source = some (.object members) →
        (Misfielded ChannelSpec.fields ChannelSpec.fields members →
            decode? ChannelSpec.ofJson? source = none) ∧
          (Misfielded Rule.fields (Rule.fields.filter (· ≠ "message")) members →
            decode? Rule.ofJson? source = none) := by
  refine ⟨?_, ?_, ?_, ?_, ?_, ?_, ?_⟩
  · intro spec document reordering
    rw [Restores, reordering.decode?_compact spec.grammatical_toJson ChannelSpec.ofJson?_perm]
    exact spec.restored
  · intro rule document written
    have read : decode? Rule.ofJson? document.compact = Rule.ofJson? rule.toJson := by
      obtain reordering | ⟨silent, reordering⟩ := written
      · exact reordering.decode?_compact rule.grammatical_toJson Rule.ofJson?_perm
      · rw [reordering.decode?_compact (rule.grammatical_toJson.without _) Rule.ofJson?_perm,
          Rule.ofJson?_without_message silent]
    rw [Restores, read]
    exact rule.restored
  · intro number document reordering
    rw [Restores, reordering.decode?_compact number.grammatical_toJson Complex.ofJson?_perm]
    exact number.restored
  · intro operation
    exact (grammatical_ofText _).decode?_compact _ |>.trans operation.ofJson?_toJson
  · intro severity
    exact (grammatical_ofText _).decode?_compact _ |>.trans severity.ofJson?_toJson
  · intro comparison
    exact (grammatical_ofText _).decode?_compact _ |>.trans comparison.ofJson?_toJson
  · intro source members parsed
    rw [decode?, decode?, parsed]
    exact ⟨refused_of_misfielded ChannelSpec.complete, refused_of_misfielded Rule.complete⟩

/-- A name with a quote, a backslash and a line end, and the members the other
way round. -/
theorem configurations_restored_kiln :
    let kiln : ChannelSpec := ⟨"kiln \"a\" \\ \n", 20.5, -10, 1250, 0.25⟩
    (∀ x ∈ kiln.numbers, ReadsBack x) ∧
      decode? ChannelSpec.ofJson? (record [("max_step", .ofFloat 0.25), ("upper", .ofFloat 1250),
        ("lower", .ofFloat (-10)), ("initial", .ofFloat 20.5),
        ("name", .ofText kiln.name)]).compact = some kiln := by
  intro kiln
  have each : ∀ x ∈ kiln.numbers, ReadsBack x := by
    simp only [ChannelSpec.numbers, List.forall_mem_cons, ReadsBack]
    refine ⟨?_, ?_, ?_, ?_, nofun⟩ <;> decide +kernel
  exact ⟨each, (configurations_restored.1 kiln _ (.members (List.reverse_perm _))).1 each⟩

end Telemetry
