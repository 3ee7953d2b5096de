import Scaffold.Proofs.Schema.Concatenation
import Scaffold.Proofs.Schema.Mention

/-!
One line of a body, written in two ways. Two sources that differ in one line of a body declare the
same models, but that the fields of the line gain the attributes that a text mentions
(`Model.gainOn`), if what is kept of the line gains them (`models_of_line`). So a comment behind the
line, and what stands in a literal on it, do not more than mention attributes
(`models_of_comment_and_literal`).

Two walks over such sources are in the same block but for the fields of the line (`Gains`); this
holds before the line, since no line above has its number, and every line below keeps it
(`walk_gains`).
-/

namespace Scaffold.Schema

open Text

/-! ### What blocks declare -/

/-- The model with what an entry adds to it. -/
def Model.add (model : Model) (entry : Entry) : Model :=
  { model with
    fields := model.fields ++ entry.field?.toList
    compositeId := model.compositeId.or entry.compositeId? }

/-- The model that a block declares, if it is the block of a model. -/
def Block.declared? (block : Block) : Option Model :=
  if block.isModel then some block.model else none

/-- The model that a finding completes. -/
def Finding.declared? (finding : Finding) : Option Model :=
  finding.block?.bind Block.declared?

/-- The models that some lines complete, given the block that is open before them. -/
def declared (openBlock : Option Block) (content : List SourceLine) : List Model :=
  (completed openBlock content).filterMap Block.declared?

theorem Document.models_eq_declared (source : String) :
    (ofSource source).models = declared none (sourceLines source.toList) := by
  rw [models_ofSource, ← List.filterMap_eq_map, List.filterMap_filter]
  rfl

theorem declared_append (openBlock : Option Block) (first second : List SourceLine) :
    declared openBlock (first ++ second) =
      declared openBlock first ++ declared (walk openBlock first).1 second := by
  rw [declared, completed_append, List.filterMap_append]
  rfl

theorem declared_cons (openBlock : Option Block) (line : SourceLine) (rest : List SourceLine) :
    declared openBlock (line :: rest) =
      ((step openBlock line).2.bind Finding.declared?).toList ++
        declared (step openBlock line).1 rest := by
  unfold declared completed
  rw [walk, List.filterMap_append, List.filterMap_append]
  congr 1
  cases (step openBlock line).2 with
  | none => rfl
  | some finding =>
    cases finding with
    | problem diagnostic => rfl
    | complete block =>
      cases h : block.declared? with
      | none => simp [Finding.block?, Finding.declared?, h]
      | some model => simp [Finding.block?, Finding.declared?, h]

theorem Block.model_keep (block : Block) (line : SourceLine) :
    (block.keep line).model = block.model.add (Entry.ofLine line) := by
  unfold keep
  split
  next hempty =>
    have hline : Entry.ofLine line = .unrecognized := by
      unfold Entry.ofLine
      rw [List.isEmpty_iff.mp hempty]
      rfl
    simp [hline, Model.add, Entry.field?, Entry.compositeId?]
  next =>
    have hfield : [Entry.ofLine line].filterMap Entry.field? =
        (Entry.ofLine line).field?.toList := by
      cases h : (Entry.ofLine line).field? with
      | none => simp [h]
      | some field => simp [h]
    simp [model, push, Model.add, List.filterMap_append, hfield]

theorem Block.declared?_keep (block : Block) (line : SourceLine) :
    (block.keep line).declared? =
      block.declared?.map fun model => model.add (Entry.ofLine line) := by
  have hmodel : (block.keep line).isModel = block.isModel := by
    unfold isModel
    rw [(block.continues_keep line).keyword]
  unfold declared?
  rw [hmodel, model_keep]
  split
  · rfl
  · rfl

/-! ### What a line gains -/

/-- The field with the attributes that a text mentions, if it stands on a given line. -/
def Field.gainOn (number : Nat) (text : List Char) (field : Field) : Field :=
  if field.line = number then field.gain text else field

/-- The model whose fields on a given line have the attributes that a text mentions. -/
def Model.gainOn (number : Nat) (text : List Char) (model : Model) : Model :=
  { model with fields := model.fields.map (Field.gainOn number text) }

/-- An entry that adds to a model what another adds, with what a text mentions on a given line. -/
structure Entry.Gains (number : Nat) (text : List Char) (entry gained : Entry) : Prop where
  field : gained.field? = entry.field?.map (Field.gainOn number text)
  identity : gained.compositeId? = entry.compositeId?

theorem Field.gainOn_nil (number : Nat) (field : Field) : field.gainOn number [] = field := by
  unfold gainOn
  rw [gain_nil, ite_self]

theorem Model.add_gainOn {number : Nat} {text : List Char} {entry gained : Entry}
    (h : entry.Gains number text gained) (model : Model) :
    (model.gainOn number text).add gained = (model.add entry).gainOn number text := by
  simp [add, gainOn, h.field, h.identity, Option.toList_map]

/-- The field of an entry stands on the line of the entry. -/
theorem Entry.line_of_field? {line : SourceLine} {field : Field}
    (h : (ofLine line).field? = some field) : field.line = line.number := by
  unfold ofLine at h
  split at h
  · cases h
  · split at h
    · split at h
      · cases h
      · cases h
    · split at h
      next found hfield =>
        obtain rfl := Option.some.inj h
        obtain ⟨declaration, -, rfl⟩ := Option.map_eq_some_iff.mp hfield
        rfl
      next => cases h

/-- An entry gains nothing on another line. -/
theorem Entry.gains_of_ne {number : Nat} {line : SourceLine} (h : line.number ≠ number)
    (text : List Char) : (ofLine line).Gains number text (ofLine line) := by
  refine ⟨?_, rfl⟩
  cases hfield : (ofLine line).field? with
  | none => rfl
  | some field =>
    rw [Option.map_some, Field.gainOn, if_neg]
    rwa [line_of_field? hfield]

theorem Entry.gains_gain (line : SourceLine) (text : List Char) :
    (ofLine line).Gains line.number text ((ofLine line).gain text) := by
  cases hentry : ofLine line with
  | declared field =>
    have hline : field.line = line.number := by
      apply line_of_field?
      rw [hentry]
      rfl
    refine ⟨?_, rfl⟩
    simp [gain, field?, Field.gainOn, hline]
  | comment | identity id? | «attribute» | unrecognized => exact ⟨rfl, rfl⟩

/-- What mentions nothing adds nothing. -/
theorem Entry.gains_nil (number : Nat) (entry : Entry) : entry.Gains number [] entry := by
  refine ⟨?_, rfl⟩
  cases entry.field? with
  | none => rfl
  | some field => rw [Option.map_some, Field.gainOn_nil]

/-! ### Steps and walks -/

/-- Whether an open block declares what another one declares, with what a text mentions on a given
line. -/
def Gains (number : Nat) (text : List Char) (first second : Option Block) : Prop :=
  second.map Block.declared? =
    first.map fun block => block.declared?.map (Model.gainOn number text)

section Steps

variable {number : Nat} {text : List Char}

/-- Of two lines that both close an open block or both do not, the second does to the block what
the first does, but for what it gains. -/
theorem step_some_gains {first second : Block} (h : Gains number text (some first) (some second))
    {line other : SourceLine} (hcloses : closesBlock other.text = closesBlock line.text)
    (hentry : (Entry.ofLine line.kept).Gains number text (Entry.ofLine other.kept)) :
    Gains number text (step (some first) line).1 (step (some second) other).1 ∧
      (step (some second) other).2.bind Finding.declared? =
        ((step (some first) line).2.bind Finding.declared?).map (Model.gainOn number text) := by
  have hkeep : (second.keep other.kept).declared? =
      (first.keep line.kept).declared?.map (Model.gainOn number text) := by
    have hdeclared : second.declared? = first.declared?.map (Model.gainOn number text) :=
      Option.some.inj h
    rw [Block.declared?_keep, Block.declared?_keep, hdeclared, Option.map_map, Option.map_map]
    congr 1
    funext model
    exact Model.add_gainOn hentry model
  rw [step_some_eq, step_some_eq, hcloses]
  split
  · exact ⟨rfl, hkeep⟩
  · exact ⟨congrArg some hkeep, rfl⟩

theorem SourceLine.number_kept (line : SourceLine) : line.kept.number = line.number := by
  unfold kept
  split
  · rfl
  · rfl

/-- A block that has just been opened declares nothing on any line. -/
theorem gains_of_header? {line : SourceLine} {block : Block} {rest : List Char}
    (h : header? line = some (block, rest)) : Gains number text (some block) (some block) := by
  obtain ⟨_, keyword, name, _, _, _, _, rfl⟩ := eq_of_header? h
  unfold Gains Block.declared?
  rw [Option.map_some, Option.map_some]
  split
  · rfl
  · rfl

/-- A line with another number keeps what was gained. -/
theorem step_gains {first second : Option Block} (h : Gains number text first second)
    {line : SourceLine} (hline : line.number ≠ number) :
    Gains number text (step first line).1 (step second line).1 ∧
      (step second line).2.bind Finding.declared? =
        ((step first line).2.bind Finding.declared?).map (Model.gainOn number text) := by
  have hkept : ∀ line : SourceLine, line.number ≠ number →
      (Entry.ofLine line.kept).Gains number text (Entry.ofLine line.kept) := by
    intro line hline
    apply Entry.gains_of_ne
    rwa [SourceLine.number_kept]
  cases first with
  | some block =>
    cases second with
    | some block' => exact step_some_gains h rfl (hkept line hline)
    | none => cases h
  | none =>
    cases second with
    | some block => cases h
    | none =>
      cases hheader : header? line with
      | some opened =>
        obtain ⟨block, rest⟩ := opened
        have hstep : step none line = step (some block) ⟨line.number, trim rest⟩ :=
          step_of_header? hheader
        rw [hstep]
        exact step_some_gains (gains_of_header? hheader) rfl (hkept _ hline)
      | none =>
        unfold step
        simp only [hheader]
        split
        · exact ⟨rfl, rfl⟩
        · exact ⟨rfl, rfl⟩

/-- Lines with other numbers keep what was gained. -/
theorem walk_gains {first second : Option Block} (h : Gains number text first second)
    {content : List SourceLine} (hcontent : ∀ line ∈ content, line.number ≠ number) :
    Gains number text (walk first content).1 (walk second content).1 ∧
      declared second content = (declared first content).map (Model.gainOn number text) := by
  induction content generalizing first second with
  | nil => exact ⟨h, rfl⟩
  | cons line rest ih =>
    obtain ⟨hopen, hfound⟩ := step_gains h (hcontent line (List.mem_cons_self ..))
    obtain ⟨hlast, hrest⟩ := ih hopen fun other mem => hcontent other (List.mem_cons_of_mem _ mem)
    refine ⟨hlast, ?_⟩
    rw [declared_cons, declared_cons, hfound, hrest, List.map_append, Option.toList_map]

end Steps

/-! ### The line -/

/-- A beginning of a line behind which a line of a body stands, given the lines above: nothing, if
they leave a block open, and else a header up to its brace. -/
def LeadsIntoBody (above : List SourceLine) (number : Nat) (lead : List Char) : Prop :=
  LeavesOpen above ∧ lead = [] ∨
    ¬ LeavesOpen above ∧ ∃ block, header? ⟨number, trimLeft lead⟩ = some (block, [])

theorem number_of_mem_numbered {start : Nat} {content : List (List Char)} {line : SourceLine}
    (h : line ∈ numbered start content) :
    start ≤ line.number ∧ line.number < start + content.length := by
  obtain ⟨⟨text, number⟩, hmem, rfl⟩ := List.mem_map.mp h
  have := List.mem_zipIdx hmem
  simp only
  omega

/-- What follows the brace of a header is trimmed at its end only. -/
theorem trim_append_of_header? {number : Nat} {lead : List Char} {block : Block}
    (h : header? ⟨number, trimLeft lead⟩ = some (block, [])) (behind : List Char) :
    trim (lead ++ behind) = trimLeft lead ++ trimRight behind := by
  obtain ⟨head, _, _, hbrace, -, -, -, -⟩ := eq_of_header? h
  have hbrace : trimLeft lead = head ++ ['{'] := hbrace
  have htrimmed : IsTrimmed (trimLeft lead) :=
    ⟨head?_trimLeft lead, by simp [hbrace, isBlank]⟩
  have hsplit := takeWhile_append_trimLeft lead
  rw [← hsplit, List.append_assoc, trim_append_left (isBlankText_takeWhile lead),
    trim_append (by simp [hbrace]) htrimmed, hsplit]

/-- What stands behind such a beginning is fed to a block. -/
theorem step_of_leadsIntoBody {above : List SourceLine} {number : Nat} {lead : List Char}
    (h : LeadsIntoBody above number lead) (habove : ∀ line ∈ above, line.number ≠ number)
    (text : List Char) :
    ∃ block, Gains number text (some block) (some block) ∧ ∀ behind,
      step (walk none above).1 ⟨number, trim (lead ++ behind)⟩ =
        step (some block) ⟨number, trim behind⟩ := by
  rcases h with ⟨hopen, rfl⟩ | ⟨hclosed, block, hheader⟩
  · obtain ⟨block, hblock⟩ := Option.isSome_iff_exists.mp (isSome_walk_iff.mpr hopen)
    have hstart : Gains number text none none := rfl
    have hgains := (walk_gains hstart habove).1
    rw [hblock] at hgains
    refine ⟨block, hgains, fun behind => ?_⟩
    rw [hblock]
    rfl
  · refine ⟨block, gains_of_header? hheader, fun behind => ?_⟩
    have hline : header? ⟨number, trimLeft lead ++ trimRight behind⟩ =
        some (block, trimRight behind) :=
      header?_append hheader _
    rw [walk_of_not_leavesOpen hclosed, trim_append_of_header? hheader, step_of_header? hline,
      trim_trimRight]
    rfl

/-! ### Comments and literals -/

/-- A line is trimmed up to the comment behind it, and the comment itself at its end. -/
theorem trim_append_comment (text comment : List Char) :
    ∃ pad, IsBlankText pad ∧ pad ≠ [] ∧
      trim (text ++ (" //".toList ++ comment)) =
        if trim text = [] then '/' :: '/' :: trimRight comment
        else trim text ++ (pad ++ '/' :: '/' :: trimRight comment) := by
  obtain ⟨left, right, hleft, hright, hsplit⟩ := exists_eq_append_trim text
  have hpad : IsBlankText (right ++ [' ']) := by
    intro c hc
    rcases List.mem_append.mp hc with hc | hc
    · exact hright c hc
    · obtain rfl := List.mem_singleton.mp hc
      decide
  have hmark : ∀ pad, trimRight (pad ++ '/' :: '/' :: comment) =
      pad ++ '/' :: '/' :: trimRight comment := by
    intro pad
    have hsecond := trimRight_append_cons (c := '/') (by decide) [] comment
    rw [List.nil_append, List.nil_append] at hsecond
    rw [trimRight_append_cons (by decide), hsecond]
  refine ⟨right ++ [' '], hpad, by simp, ?_⟩
  have hline : text ++ (" //".toList ++ comment) =
      left ++ (trim text ++ ((right ++ [' ']) ++ '/' :: '/' :: comment)) := by
    conv => left; rw [hsplit]
    simp
  rw [hline, trim_append_left hleft]
  split
  next hnil =>
    have hhead : ∀ c ∈ ('/' :: '/' :: comment).head?, isBlank c = false := by simp [isBlank]
    rw [hnil, List.nil_append, trim_append_left hpad, trim, trimLeft_eq_self hhead]
    exact hmark []
  next hne => rw [trim_append hne (isTrimmed_trim text), hmark]

theorem trim_literal (front content back : List Char) :
    trim (front ++ '"' :: (content ++ '"' :: back)) =
      trimLeft front ++ '"' :: (content ++ '"' :: trimRight back) := by
  rw [trim, trimLeft_append_cons (by decide), trimRight_append_cons (by decide),
    trimRight_append_cons (by decide)]

/-- What is kept of a line gains what a comment behind the line mentions, unless the line closes the
block. -/
theorem kept_append_comment {text comment : List Char} (hterminated : IsTerminated (trim text))
    (h : closesBlock text = false →
      ∀ arguments ∈ identityArguments? (trim text), IsAside arguments comment) (number : Nat) :
    closesBlock (trim (text ++ (" //".toList ++ comment))) = closesBlock (trim text) ∧
      (Entry.ofLine (SourceLine.kept ⟨number, trim text⟩)).Gains number
        (if closesBlock text then [] else comment)
        (Entry.ofLine (SourceLine.kept ⟨number, trim (text ++ (" //".toList ++ comment))⟩)) := by
  obtain ⟨pad, hpad, pad_ne_nil, htrim⟩ := trim_append_comment text comment
  rw [← closesBlock_trim text] at h ⊢
  rw [htrim]
  split
  next hnil =>
    -- The comment is the whole line, and without it the line is blank.
    rw [hnil]
    exact ⟨rfl, rfl, rfl⟩
  next =>
    have hcut := cutAtBrace?_append_comment hterminated hpad pad_ne_nil (trimRight comment)
    cases hline : cutAtBrace? .plain (trim text) with
    | some cut =>
      rw [hline, Option.map_some] at hcut
      have hcloses : closesBlock (trim text) = true := by rw [closesBlock, hline]; rfl
      refine ⟨by rw [closesBlock, hcut, hcloses]; rfl, ?_⟩
      have hplain : SourceLine.kept ⟨number, trim text⟩ = ⟨number, trim cut.1⟩ :=
        SourceLine.kept_of_closing hline
      rw [if_pos hcloses, hplain, SourceLine.kept_of_closing hcut]
      exact Entry.gains_nil number _
    | none =>
      rw [hline, Option.map_none] at hcut
      have hopen : closesBlock (trim text) = false := by rw [closesBlock, hline]; rfl
      refine ⟨by rw [closesBlock, hcut, hopen]; rfl, ?_⟩
      have hplain : SourceLine.kept ⟨number, trim text⟩ = ⟨number, trim text⟩ :=
        SourceLine.kept_of_open hline
      have haside : ∀ arguments, identityArguments? (trim text) = some arguments →
          IsAside arguments (trimRight comment) :=
        fun arguments harguments => (h hopen arguments harguments).trimRight
      rw [if_neg (by simp [hopen]), hplain, SourceLine.kept_of_open hcut,
        Entry.ofLine_append_comment hpad pad_ne_nil haside, Entry.gain_trimRight]
      exact Entry.gains_gain ⟨number, trim text⟩ comment

/-- What is kept of a line gains what a literal on the line mentions, unless the block is closed
before the literal. -/
theorem kept_literal {front content : List Char}
    (hfront : modeAfter? .plain (trimLeft front) = some .plain)
    (hcontent : isLiteral .quoted content = true)
    (h : closesBlock front = false →
      ∀ arguments ∈ identityArguments? (trimLeft front), IsInert arguments content)
    (back : List Char) (number : Nat) :
    closesBlock (trim (front ++ '"' :: (content ++ '"' :: back))) =
        closesBlock (trim (front ++ '"' :: '"' :: back)) ∧
      (Entry.ofLine (SourceLine.kept ⟨number, trim (front ++ '"' :: '"' :: back)⟩)).Gains number
        (if closesBlock front then [] else content)
        (Entry.ofLine (SourceLine.kept
          ⟨number, trim (front ++ '"' :: (content ++ '"' :: back))⟩)) := by
  have hempty : trim (front ++ '"' :: '"' :: back) =
      trimLeft front ++ '"' :: '"' :: trimRight back :=
    trim_literal front [] back
  have hcutEmpty := cutAtBrace?_literal hfront (rfl : isLiteral .quoted [] = true) (trimRight back)
  have hcut := cutAtBrace?_literal hfront hcontent (trimRight back)
  rw [List.nil_append] at hcutEmpty
  rw [← closesBlock_trimLeft front] at h ⊢
  rw [trim_literal, hempty]
  cases hline : cutAtBrace? .plain (trimLeft front) with
  | some cut =>
    -- The block is closed before the literal, so what is kept ends there.
    rw [hline, Option.map_some, Option.some_or] at hcut hcutEmpty
    have hcloses : closesBlock (trimLeft front) = true := by rw [closesBlock, hline]; rfl
    refine ⟨by rw [closesBlock, closesBlock, hcut, hcutEmpty]; rfl, ?_⟩
    rw [if_pos hcloses, SourceLine.kept_of_closing hcutEmpty, SourceLine.kept_of_closing hcut]
    exact Entry.gains_nil number _
  | none =>
    rw [hline, Option.map_none, Option.none_or] at hcut hcutEmpty
    have hopen : closesBlock (trimLeft front) = false := by rw [closesBlock, hline]; rfl
    refine ⟨by rw [closesBlock, closesBlock, hcut, hcutEmpty, Option.isSome_map,
      Option.isSome_map], ?_⟩
    rw [if_neg (by simp [hopen])]
    have hgains : ∀ tail, (Entry.ofLine ⟨number, trimLeft front ++ '"' :: '"' :: tail⟩).Gains number
        content (Entry.ofLine ⟨number, trimLeft front ++ '"' :: (content ++ '"' :: tail)⟩) := by
      intro tail
      rw [Entry.ofLine_literal hcontent (h hopen)]
      exact Entry.gains_gain ⟨number, _⟩ content
    -- Now only what stands behind the literal decides whether the block is closed.
    cases hback : cutAtBrace? .plain (trimRight back) with
    | none =>
      rw [hback, Option.map_none] at hcut hcutEmpty
      rw [SourceLine.kept_of_open hcutEmpty, SourceLine.kept_of_open hcut]
      exact hgains _
    | some cut =>
      rw [hback, Option.map_some] at hcut hcutEmpty
      have hleft : trimLeft (trimLeft front) = trimLeft front :=
        trimLeft_eq_self (head?_trimLeft front)
      have hinner := trim_literal (trimLeft front) content cut.1
      have hinnerEmpty := trim_literal (trimLeft front) [] cut.1
      rw [hleft] at hinner hinnerEmpty
      rw [SourceLine.kept_of_closing hcutEmpty, SourceLine.kept_of_closing hcut, hinner,
        hinnerEmpty]
      exact hgains _

/-- Two sources that differ in one line of a body declare the same models, but for what is kept of
the line. -/
theorem models_of_line {above below : List (List Char)} {lead : List Char}
    (hlead : LeadsIntoBody (numbered 1 above) (above.length + 1) lead)
    {line other : List Char} {first second : String}
    (hfirst : lines first.toList = above ++ (lead ++ line) :: below)
    (hsecond : lines second.toList = above ++ (lead ++ other) :: below) {text : List Char}
    (hcloses : closesBlock (trim other) = closesBlock (trim line))
    (hentry : (Entry.ofLine (SourceLine.kept ⟨above.length + 1, trim line⟩)).Gains
      (above.length + 1) text (Entry.ofLine (SourceLine.kept ⟨above.length + 1, trim other⟩))) :
    (Document.ofSource second).models =
      (Document.ofSource first).models.map (Model.gainOn (above.length + 1) text) := by
  -- Only the line itself has its number, so nothing above is changed and nothing below changes it.
  have habove : ∀ line ∈ numbered 1 above, line.number ≠ above.length + 1 := by
    intro line mem
    have := number_of_mem_numbered mem
    omega
  have hbelow : ∀ line ∈ numbered (above.length + 1 + 1) below,
      line.number ≠ above.length + 1 := by
    intro line mem
    have := number_of_mem_numbered mem
    omega
  have hstart : Gains (above.length + 1) text none none := rfl
  have hmodels := (walk_gains hstart habove).2
  obtain ⟨block, hblock, hstep⟩ := step_of_leadsIntoBody hlead habove text
  obtain ⟨hopen, hfound⟩ := step_some_gains hblock hcloses hentry
  have hrest := (walk_gains hopen hbelow).2
  rw [Document.models_eq_declared, Document.models_eq_declared, sourceLines_eq_numbered,
    sourceLines_eq_numbered, hfirst, hsecond, numbered_append, numbered_append, numbered_cons,
    numbered_cons, Nat.add_comm 1, declared_append, declared_append, declared_cons, declared_cons,
    hstep, hstep, hfound, hrest, List.map_append, List.map_append, ← hmodels, Option.toList_map]

/-- A comment behind a line of a body, and what stands in a literal on the line, add to the field of
the line the attributes that they mention, and do nothing else to the models of a source. Behind the
brace that closes the block they do nothing at all. -/
theorem models_of_comment_and_literal {above below : List (List Char)} {lead : List Char}
    (hlead : LeadsIntoBody (numbered 1 above) (above.length + 1) lead) :
    (∀ (text comment : List Char) (plain commented : String),
      lines plain.toList = above ++ (lead ++ text) :: below →
      lines commented.toList = above ++ (lead ++ (text ++ (" //".toList ++ comment))) :: below →
      IsTerminated (trim text) →
      (closesBlock text = false →
        ∀ arguments ∈ identityArguments? (trim text), IsAside arguments comment) →
      (Document.ofSource commented).models = (Document.ofSource plain).models.map
        (Model.gainOn (above.length + 1) (if closesBlock text then [] else comment))) ∧
    (∀ (front content back : List Char) (emptied filled : String),
      lines emptied.toList = above ++ (lead ++ (front ++ '"' :: '"' :: back)) :: below →
      lines filled.toList = above ++ (lead ++ (front ++ '"' :: (content ++ '"' :: back))) :: below →
      modeAfter? .plain (trimLeft front) = some .plain →
      isLiteral .quoted content = true →
      (closesBlock front = false →
        ∀ arguments ∈ identityArguments? (trimLeft front), IsInert arguments content) →
      (Document.ofSource filled).models = (Document.ofSource emptied).models.map
        (Model.gainOn (above.length + 1) (if closesBlock front then [] else content))) := by
  constructor
  · intro text comment plain commented hplain hcommented hterminated haside
    obtain ⟨hcloses, hentry⟩ := kept_append_comment hterminated haside (above.length + 1)
    exact models_of_line hlead hplain hcommented hcloses hentry
  · intro front content back emptied filled hemptied hfilled hfront hcontent hinert
    obtain ⟨hcloses, hentry⟩ := kept_literal hfront hcontent hinert back (above.length + 1)
    exact models_of_line hlead hemptied hfilled hcloses hentry

/-- A schema of one model, with a given line as its body. -/
def orderSchema (line : String) : String :=
  "model Order \x7b\n" ++ line ++ "\n\x7d\n"

theorem models_of_comment_and_literal_order :
    LeadsIntoBody (numbered 1 ["model Order \x7b".toList]) 2 [] ∧
      (Document.ofSource (orderSchema "@@id([a, b]) // see b, @id")).models =
        (Document.ofSource (orderSchema "@@id([a, b])")).models.map
          (Model.gainOn 2 " see b, @id".toList) ∧
      (Document.ofSource (orderSchema "note String @map(\"say \\\"@unique\\\"\")")).models =
        (Document.ofSource (orderSchema "note String @map(\"\")")).models.map
          (Model.gainOn 2 (escape "say \"@unique\"".toList)) := by
  have hlead : LeadsIntoBody (numbered 1 ["model Order \x7b".toList]) 2 [] :=
    Or.inl ⟨by decide, rfl⟩
  obtain ⟨hcomment, hliteral⟩ :=
    @models_of_comment_and_literal ["model Order \x7b".toList] ["\x7d".toList] [] hlead
  refine ⟨hlead, ?_, ?_⟩
  · refine hcomment "@@id([a, b])".toList " see b, @id".toList _ _ (by decide) (by decide)
      (by decide) fun _ arguments harguments => ?_
    obtain rfl : "[a, b])".toList = arguments := Option.some.inj harguments
    exact ⟨Or.inl (by decide), fun _ => Or.inr ⟨by decide, by decide⟩⟩
  · refine hliteral "note String @map(".toList (escape "say \"@unique\"".toList) ")".toList _ _
      (by decide) (by decide) (by decide) (isLiteral_escape _) fun _ arguments harguments => ?_
    cases harguments

/-- Attributes that a comment or a literal mentions are read, and so are a list and a key that a
comment completes and a list that stands in a literal. -/
theorem models_ne_of_comment_and_literal :
    (Document.ofSource (orderSchema "ref Int // @id")).models ≠
        (Document.ofSource (orderSchema "ref Int")).models ∧
      (Document.ofSource (orderSchema "note String @map(\"@unique\")")).models ≠
        (Document.ofSource (orderSchema "note String @map(\"\")")).models ∧
      (Document.ofSource (orderSchema "@@id([a // b]")).models ≠
        (Document.ofSource (orderSchema "@@id([a")).models ∧
      (Document.ofSource (orderSchema "@@id([a]) // , name: \"key\"")).models ≠
        (Document.ofSource (orderSchema "@@id([a])")).models ∧
      (Document.ofSource (orderSchema "@@id(map: \"[b]\", fields: [a])")).models ≠
        (Document.ofSource (orderSchema "@@id(map: \"\", fields: [a])")).models := by
  decide +kernel

end Scaffold.Schema
