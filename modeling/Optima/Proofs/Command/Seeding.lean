import Optima.Command.Run
import Optima.Proofs.Table

namespace Optima

/-!
# A seed for a problem

A command may give a problem a seed.  The parameters that a strategy then works with are
those that it would have worked with, but for the seed, as long as the problem carries
parameters of the strategy or none at all.  Parameters of another strategy are replaced,
and with them is lost what they say about limits and bounds.
-/

namespace Table

variable {β : Type} {table other : Table β} {name : String}

theorem insertAll_append
    (first second : List (String × β)) :
    table.insertAll (first ++ second) = (table.insertAll first).insertAll second :=
  List.foldl_append

/-- Two tables have the same values, but for one name. -/
def AgreeExcept (name : String) (table other : Table β) : Prop :=
  ∀ key, key ≠ name → other.get? key = table.get? key

theorem agreeExcept_refl
    (name : String)
    (table : Table β) :
    AgreeExcept name table table :=
  fun _ _ => rfl

namespace AgreeExcept

theorem insert_left
    (agree : AgreeExcept name table other)
    (value : β) :
    AgreeExcept name (table.insert name value) other := by
  intro key isOther
  rw [get?_insert, if_neg isOther]
  exact agree key isOther

theorem insert_right
    (agree : AgreeExcept name table other)
    (value : β) :
    AgreeExcept name table (other.insert name value) := by
  intro key isOther
  rw [get?_insert, if_neg isOther]
  exact agree key isOther

theorem insert
    (agree : AgreeExcept name table other)
    (key : String)
    (value : β) :
    AgreeExcept name (table.insert key value) (other.insert key value) := by
  intro another isOther
  rw [get?_insert, get?_insert, agree another isOther]

theorem insertAll
    (agree : AgreeExcept name table other)
    (entries : List (String × β)) :
    AgreeExcept name (table.insertAll entries) (other.insertAll entries) := by
  induction entries generalizing table other with
  | nil => exact agree
  | cons entry rest inductionHypothesis =>
      exact inductionHypothesis (agree.insert entry.1 entry.2)

end AgreeExcept

/-- Entering values for one name changes none of the others. -/
theorem agreeExcept_insertAll_left
    {entries : List (String × β)}
    (areForName : ∀ key ∈ entries.map (·.1), key = name)
    (agree : AgreeExcept name table other) :
    AgreeExcept name (table.insertAll entries) other := by
  induction entries generalizing table with
  | nil => exact agree
  | cons entry rest inductionHypothesis =>
      obtain ⟨isForName, restForName⟩ := List.forall_mem_cons.mp areForName
      have agreeNext := agree.insert_left entry.2
      rw [← isForName] at agreeNext
      rw [← isForName] at inductionHypothesis restForName ⊢
      exact inductionHypothesis restForName agreeNext

end Table

/-- A table says the same as another, but for the seed, which it has. -/
structure IsSeeded (seed : Int) (table other : Table (Document Float)) : Prop where
  agree : Table.AgreeExcept "seed" table other
  hasSeed : other.get? "seed" = some (.integer seed)

namespace IsSeeded

variable {seed : Int} {table other : Table (Document Float)}

/-- What is said later about other parameters leaves the seed. -/
theorem insertAll
    (isSeeded : IsSeeded seed table other)
    {entries : List (String × Document Float)}
    (isSilent : "seed" ∉ entries.map (·.1)) :
    IsSeeded seed (table.insertAll entries) (other.insertAll entries) :=
  ⟨isSeeded.agree.insertAll entries,
    (Table.get?_insertAll_of_not_mem other entries isSilent).trans isSeeded.hasSeed⟩

theorem insert
    (isSeeded : IsSeeded seed table other)
    {name : String}
    (isOther : "seed" ≠ name)
    (value : Document Float) :
    IsSeeded seed (table.insert name value) (other.insert name value) :=
  ⟨isSeeded.agree.insert name value, by
    rw [Table.get?_insert, if_neg isOther]
    exact isSeeded.hasSeed⟩

end IsSeeded

theorem isSeeded_insert
    (seed : Int)
    {table other : Table (Document Float)}
    (agree : Table.AgreeExcept "seed" table other) :
    IsSeeded seed table (other.insert "seed" (.integer seed)) :=
  ⟨agree.insert_right _, by rw [Table.get?_insert, if_pos rfl]⟩

section Carried

variable {α : Type}

/-- The same parameters with a seed. -/
def Parameters.withSeed (parameters : Parameters α) (seed : Int) : Parameters α :=
  parameters.withShared { parameters.shared with seed := some seed }

/-- Among the fields of parameters with a seed, that of the seed is the only one that differs. -/
theorem Parameters.exists_fields_withSeed
    (parameters : Parameters α)
    (seed : Int) :
    ∃ before value after,
      parameters.fields = before ++ ("seed", value) :: after ∧
        (parameters.withSeed seed).fields = before ++ ("seed", .integer seed) :: after ∧
        "seed" ∉ before.map (·.1) ∧ "seed" ∉ after.map (·.1) := by
  refine ⟨parameters.shared.fields.take 3, .optional .integer parameters.shared.seed,
    parameters.shared.fields.drop 4 ++ [("algorithm", .labelled parameters.algorithm)]
      ++ parameters.ownFields, ?_, ?_, ?_, ?_⟩
  · simp [fields, SharedParameters.fields]
  · cases parameters <;> rfl
  · simp [SharedParameters.fields]
  · cases parameters <;>
      simp [SharedParameters.fields, shared, ownFields, GeneticParameters.ownFields]

end Carried

namespace GivenParameters

theorem mem_given_withSeed
    {α : Type}
    (given : GivenParameters α)
    (seed : Int)
    (name : String) :
    name ∈ (given.withSeed seed).given ↔ name ∈ given.given ∨ name = "seed" := by
  unfold withSeed
  dsimp only
  split
  · rename_i hasSeed
    refine ⟨.inl, ?_⟩
    rintro (isGiven | rfl)
    · exact isGiven
    · simpa using hasSeed
  · simp

/-- What is given with a seed is what is given without it, but for the seed. -/
theorem isSeeded_givenFields_withSeed
    (given : GivenParameters Float)
    (seed : Int)
    (table : Table (Document Float)) :
    IsSeeded seed (table.insertAll given.givenFields)
      (table.insertAll (given.withSeed seed).givenFields) := by
  obtain ⟨before, value, after, isFields, isSeededFields, notBefore, notAfter⟩ :=
    given.parameters.exists_fields_withSeed seed
  have sameGiven {fields : List (String × Document Float)}
      (notSeed : "seed" ∉ fields.map (·.1)) :
      fields.filter (fun field => (given.withSeed seed).given.contains field.1) =
        fields.filter fun field => given.given.contains field.1 := by
    apply List.filter_congr
    intro field member
    have isOther : field.1 ≠ "seed" := fun isSeed =>
      notSeed (isSeed ▸ List.mem_map_of_mem member)
    simp [mem_given_withSeed, isOther]
  have isWithout :
      given.givenFields =
        before.filter (fun field => given.given.contains field.1) ++
          ([("seed", value)].filter (fun field => given.given.contains field.1) ++
            after.filter fun field => given.given.contains field.1) := by
    rw [givenFields, isFields, ← List.filter_append, ← List.filter_append, List.singleton_append]
  have isWith :
      (given.withSeed seed).givenFields =
        before.filter (fun field => given.given.contains field.1) ++
          ([("seed", .integer seed)] ++
            after.filter fun field => given.given.contains field.1) := by
    rw [givenFields, show (given.withSeed seed).parameters.fields = _ from isSeededFields,
      List.filter_append, List.filter_cons_of_pos (by simp [mem_given_withSeed]),
      sameGiven notBefore, sameGiven notAfter, List.singleton_append]
  have notAfterGiven :
      "seed" ∉ (after.filter fun field => given.given.contains field.1).map (·.1) := fun member =>
    notAfter ((List.filter_sublist.map _).subset member)
  rw [isWithout, isWith]
  simp only [Table.insertAll_append]
  refine IsSeeded.insertAll ?_ notAfterGiven
  refine isSeeded_insert seed (Table.agreeExcept_insertAll_left ?_ (Table.agreeExcept_refl _ _))
  intro key member
  obtain ⟨field, isField, rfl⟩ := List.mem_map.mp member
  obtain rfl := List.mem_singleton.mp (List.mem_of_mem_filter isField)
  rfl

/-- Of the usual parameters with a seed, the seed alone is given. -/
theorem givenFields_ofSeed
    (algorithm : Algorithm)
    (seed : Int) :
    (ofSeed algorithm seed : GivenParameters Float).givenFields = [("seed", .integer seed)] := by
  cases algorithm <;> rfl

end GivenParameters

namespace Decode

variable {β γ : Type} {misread : Prop}

/-- A step gives what another one gives, changed in some way, or the other one has misread
something. -/
def Follows (misread : Prop) (change : β → γ) (step : Decode (Option β))
    (other : Decode (Option γ)) : Prop :=
  ∀ state,
    (misread ∧ (step state).1 = none) ∨ other state = ((step state).1.map change, (step state).2)

theorem follows_pure
    {change : β → γ}
    {value? : Option β}
    {other? : Option γ}
    (isChanged : other? = value?.map change) :
    Follows misread change (pure value?) (pure other?) :=
  fun _ => .inr (by rw [isChanged]; rfl)

/-- Whatever is decoded the same way first does not matter. -/
theorem Follows.bind
    {δ : Type}
    {change : β → γ}
    (first : Decode δ)
    {next : δ → Decode (Option β)}
    {otherNext : δ → Decode (Option γ)}
    (follows : ∀ value, Follows misread change (next value) (otherNext value)) :
    Follows misread change (first >>= next) (first >>= otherNext) :=
  fun state => follows (first state).1 (first state).2

/-- What is built of a changed part is changed; without the part nothing is built. -/
theorem Follows.build
    {δ ε : Type}
    {change : β → γ}
    {changeWhole : δ → ε}
    {part : Decode (Option β)}
    {otherPart : Decode (Option γ)}
    {next : Option β → Decode (Option δ)}
    {otherNext : Option γ → Decode (Option ε)}
    (follows : Follows misread change part otherPart)
    (needsPart : ∀ state, (next none state).1 = none)
    (followsNext : ∀ value?,
      Follows misread changeWhole (next value?) (otherNext (value?.map change))) :
    Follows misread changeWhole (part >>= next) (otherPart >>= otherNext) := by
  intro state
  rcases follows state with ⟨isMisread, isMissing⟩ | isOther
  · refine .inl ⟨isMisread, ?_⟩
    change (next (part state).1 (part state).2).1 = none
    rw [isMissing]
    exact needsPart _
  · change _ ∨ otherNext (otherPart state).1 (otherPart state).2 = _
    rw [isOther]
    exact followsNext _ _

/-- A document is decoded as a whole as another one is, unless that one is misread. -/
theorem Follows.check
    {change : β → γ}
    {decoder : Decoder β}
    {otherDecoder : Decoder γ}
    {document otherDocument : Document Float}
    (follows : Follows misread change (decoder [] document) (otherDecoder [] otherDocument)) :
    (misread ∧ ∃ issues, Decode.check decoder document = .error issues) ∨
      Decode.check otherDecoder otherDocument = (Decode.check decoder document).map change := by
  unfold Decode.check run
  simp only [StateT.run]
  have atStart := follows ⟨⟨fun _ => "", 0⟩, []⟩
  cases isGiven : decoder [] document ⟨⟨fun _ => "", 0⟩, []⟩ with
  | mk value? decoding =>
      obtain ⟨supply, issues⟩ := decoding
      rw [isGiven] at atStart
      rcases atStart with ⟨isMisread, isMissing⟩ | isOther
      · refine .inl ⟨isMisread, issues.reverse, ?_⟩
        dsimp only at isMissing
        rw [isMissing]
      · rw [isOther]
        cases value? with
        | none => exact .inr rfl
        | some value =>
            cases issues with
            | nil => exact .inr rfl
            | cons issue rest => exact .inr rfl

end Decode

namespace Decoder

variable {document : Document Float} {place : List Step}

theorem nullable_integer_eq_pure
    {value : Int}
    (notNull : document ≠ .null)
    (isInteger : document.integerOf = .ok value) :
    nullable integer place document = pure (some (some value)) := by
  cases document with
  | null => exact absurd rfl notNull
  | _ =>
      simp only [nullable, integer, ofReader, isInteger]
      rfl

theorem nullable_integer_eq_report
    {fault : Fault}
    (notNull : document ≠ .null)
    (isFault : document.integerOf = .error fault) :
    nullable integer place document = Decode.report place fault := by
  cases document with
  | null => exact absurd rfl notNull
  | _ =>
      simp only [nullable, integer, ofReader, isFault]
      rfl

end Decoder

namespace Decoder.Fields

/-- The same fields with a seed. -/
structure IsSeeded (seed : Int) (fields other : Fields) : Prop where
  samePlace : other.place = fields.place
  agree : ∀ name, name ≠ "seed" → other.entries.lookup name = fields.entries.lookup name
  hasSeed : other.entries.lookup "seed" = some (.integer seed)

/-- What is said about the seed is neither a whole number nor nothing. -/
def MisreadsSeed (fields : Fields) : Prop :=
  ∃ document, fields.entries.lookup "seed" = some document ∧
    document ≠ .null ∧ ∀ seed, document.integerOf ≠ .ok seed

variable {seed : Int} {fields other : Fields}

/-- Other fields are decoded as they are without the seed. -/
theorem IsSeeded.defaulted_eq
    {β : Type}
    (isSeeded : IsSeeded seed fields other)
    {name : String}
    (isOther : name ≠ "seed")
    (decoder : Decoder β)
    (usual : β) :
    other.defaulted name decoder usual = fields.defaulted name decoder usual := by
  unfold defaulted placeOf
  rw [isSeeded.agree name isOther, isSeeded.samePlace]

/-- The seed is decoded, whatever was said about it before. -/
theorem IsSeeded.follows_seed
    (isSeeded : IsSeeded seed fields other) :
    Decode.Follows fields.MisreadsSeed (fun _ => some seed) (fields.optional "seed" .integer)
      (other.optional "seed" .integer) := by
  intro state
  have isRead : other.optional "seed" Decoder.integer = pure (some (some seed)) := by
    unfold optional defaulted
    rw [isSeeded.hasSeed]
    rfl
  rw [isRead]
  unfold optional defaulted
  cases isFound : fields.entries.lookup "seed" with
  | none => exact .inr rfl
  | some document =>
      dsimp only
      by_cases isNull : document = .null
      · rw [isNull]
        exact .inr rfl
      · cases isInteger : document.integerOf with
        | ok value =>
            rw [Decoder.nullable_integer_eq_pure isNull isInteger]
            exact .inr rfl
        | error fault =>
            refine .inl ⟨⟨document, isFound, isNull, fun value isValue => ?_⟩, ?_⟩
            · rw [isInteger] at isValue
              cases isValue
            · rw [Decoder.nullable_integer_eq_report isNull isInteger]
              rfl

end Decoder.Fields

section Decoding

variable {seed : Int} {fields other : Decoder.Fields}

/-- The shared parameters are decoded with the seed. -/
theorem SharedParameters.follows_decode
    (isSeeded : Decoder.Fields.IsSeeded seed fields other)
    (maxIterations : Nat) :
    Decode.Follows fields.MisreadsSeed
      (fun shared : SharedParameters Float => { shared with seed := some seed })
      (decode fields maxIterations) (decode other maxIterations) := by
  unfold decode
  simp only [isSeeded.defaulted_eq, ne_eq, String.reduceEq, not_false_eq_true]
  refine .bind _ fun iterations? => .bind _ fun tolerance? => .bind _ fun limit? =>
    .build isSeeded.follows_seed (fun state => ?_) fun seed? => .bind _ fun convergence? =>
      .bind _ fun parallelization? => .bind _ fun bounds? => Decode.follows_pure ?_
  · cases iterations? <;> cases tolerance? <;> cases limit? <;> rfl
  · cases seed? <;> simp [Option.map_bind, Function.comp_def]

theorem SharedParameters.follows_decodeFor
    (isSeeded : Decoder.Fields.IsSeeded seed fields other)
    (algorithm : Algorithm)
    (maxIterations : Nat) :
    Decode.Follows fields.MisreadsSeed
      (fun shared : SharedParameters Float => { shared with seed := some seed })
      (decodeFor algorithm fields maxIterations) (decodeFor algorithm other maxIterations) := by
  unfold decodeFor
  simp only [isSeeded.defaulted_eq, ne_eq, String.reduceEq, not_false_eq_true]
  refine .build (follows_decode isSeeded maxIterations) (fun state => ?_) fun shared? =>
    .bind _ fun algorithm? => Decode.follows_pure ?_
  · change Option.bind _ (fun _ => none) = none
    exact Option.bind_fun_none _
  · cases algorithm? <;> rfl

/-- The parameters of an evolutionary strategy are decoded with the seed. -/
theorem GeneticParameters.follows_decoder
    (isSeeded : Decoder.Fields.IsSeeded seed fields other)
    (algorithm : Algorithm)
    (maxIterations : Nat) :
    Decode.Follows fields.MisreadsSeed
      (fun parameters : GeneticParameters Float => { parameters with seed := some seed })
      (decoder algorithm maxIterations fields.place (.mapping fields.entries))
      (decoder algorithm maxIterations other.place (.mapping other.entries)) := by
  unfold decoder Decoder.record Decoder.recordWith
  simp only [isSeeded.defaulted_eq, ne_eq, String.reduceEq, not_false_eq_true]
  refine .build (SharedParameters.follows_decodeFor isSeeded algorithm maxIterations)
    (fun state => rfl) fun shared? => ?_
  iterate 9 refine .bind _ fun value? => ?_
  refine Decode.follows_pure ?_
  cases shared? <;> simp [Option.map_bind, Function.comp_def]

/-- The parameters of backtracking are decoded with the seed. -/
theorem BacktrackingParameters.follows_decoder
    (isSeeded : Decoder.Fields.IsSeeded seed fields other) :
    Decode.Follows fields.MisreadsSeed
      (fun parameters : BacktrackingParameters Float => { parameters with seed := some seed })
      (decoder fields.place (.mapping fields.entries))
      (decoder other.place (.mapping other.entries)) := by
  unfold decoder Decoder.record Decoder.recordWith
  simp only [isSeeded.defaulted_eq, ne_eq, String.reduceEq, not_false_eq_true]
  refine .build (SharedParameters.follows_decodeFor isSeeded .backtracking 1000)
    (fun state => rfl) fun shared? => .bind _ fun ordering? => .bind _ fun steps? =>
      .bind _ fun exhaustive? => Decode.follows_pure ?_
  cases shared? <;> simp [Option.map_bind, Function.comp_def]

/-- The parameters of a strategy are decoded with the seed. -/
theorem Parameters.follows_decoder
    (isSeeded : Decoder.Fields.IsSeeded seed fields other)
    (algorithm : Algorithm) :
    Decode.Follows fields.MisreadsSeed (fun parameters => parameters.withSeed seed)
      (decoder algorithm fields.place (.mapping fields.entries))
      (decoder algorithm other.place (.mapping other.entries)) := by
  cases algorithm with
  | backtracking =>
      refine .build (BacktrackingParameters.follows_decoder isSeeded) (fun state => rfl)
        fun parameters? => Decode.follows_pure ?_
      cases parameters? <;> rfl
  | genetic =>
      refine .build (GeneticParameters.follows_decoder isSeeded .genetic 1000) (fun state => rfl)
        fun parameters? => Decode.follows_pure ?_
      cases parameters? <;> rfl
  | pareto =>
      refine .build (GeneticParameters.follows_decoder isSeeded .pareto 200) (fun state => rfl)
        fun parameters? => Decode.follows_pure ?_
      cases parameters? <;> rfl
  | linearProgramming =>
      unfold decoder Decoder.record Decoder.recordWith
      simp only [isSeeded.defaulted_eq, ne_eq, String.reduceEq, not_false_eq_true]
      refine .build (SharedParameters.follows_decodeFor isSeeded .linearProgramming 1000)
        (fun state => rfl) fun shared? => .bind _ fun partial? => .bind _ fun penalty? =>
          Decode.follows_pure ?_
      cases shared? <;> simp [Option.map_bind, Function.comp_def, withSeed, withShared, shared]
  | routing =>
      unfold decoder Decoder.record Decoder.recordWith
      simp only [isSeeded.defaulted_eq, ne_eq, String.reduceEq, not_false_eq_true]
      refine .build (SharedParameters.follows_decodeFor isSeeded .routing 1000)
        (fun state => rfl) fun shared? => .bind _ fun search? => .bind _ fun speed? =>
          Decode.follows_pure ?_
      cases shared? <;> simp [Option.map_bind, Function.comp_def, withSeed, withShared, shared]
  | scheduling =>
      unfold decoder Decoder.record Decoder.recordWith
      simp only [isSeeded.defaulted_eq, ne_eq, String.reduceEq, not_false_eq_true]
      refine .build (SharedParameters.follows_decodeFor isSeeded .scheduling 1000)
        (fun state => rfl) fun shared? => .bind _ fun candidates? => Decode.follows_pure ?_
      cases shared? <;> simp [Option.map_bind, Function.comp_def, withSeed, withShared, shared]

end Decoding

namespace Settings

variable {settings : Settings} {algorithm : Algorithm} {seed : Int}
  {given? seeded? : Option (GivenParameters Float)}

/-- What a problem carries for a strategy. -/
def carried (algorithm : Algorithm) (given? : Option (GivenParameters Float)) :
    List (String × Document Float) :=
  (given?.map (contribution algorithm)).getD []

/-- What is said about the seed of a strategy is neither a whole number nor nothing. -/
def MisreadsSeed (settings : Settings) (algorithm : Algorithm)
    (given? : Option (GivenParameters Float)) : Prop :=
  Decoder.Fields.MisreadsSeed ⟨[], (settings.merged algorithm given?).entries⟩

/-- The parameters of a strategy for a problem with a seed are those for the problem without it,
but for the seed.  What was said about the seed before may be all that is wrong with them. -/
def ResolvesWithSeed (settings : Settings) (algorithm : Algorithm) (seed : Int)
    (given? seeded? : Option (GivenParameters Float)) : Prop :=
  (∀ parameters, settings.resolve algorithm given? = .ok parameters →
      settings.resolve algorithm seeded? = .ok (parameters.withSeed seed)) ∧
    ∀ issues, settings.resolve algorithm given? = .error issues →
      settings.resolve algorithm seeded? = .error issues ∨
        settings.MisreadsSeed algorithm given?

/-- Problems that carry the same, but for the seed, are solved with the same parameters, but for
the seed. -/
theorem resolvesWithSeed_of_isSeeded
    (isSeeded : ∀ table : Table (Document Float),
      IsSeeded seed (table.insertAll (carried algorithm given?))
        (table.insertAll (carried algorithm seeded?))) :
    settings.ResolvesWithSeed algorithm seed given? seeded? := by
  have merged :
      IsSeeded seed (settings.merged algorithm given?) (settings.merged algorithm seeded?) :=
    (isSeeded _).insert (by decide) _
  have isSeededFields :
      Decoder.Fields.IsSeeded seed ⟨[], (settings.merged algorithm given?).entries⟩
        ⟨[], (settings.merged algorithm seeded?).entries⟩ :=
    ⟨rfl, merged.agree, merged.hasSeed⟩
  have follows := Parameters.follows_decoder isSeededFields algorithm
  rcases follows.check with ⟨isMisread, issues, fails⟩ | isSame
  · refine ⟨fun parameters isResolved => ?_, fun _ _ => .inr isMisread⟩
    exact absurd (fails.symm.trans isResolved) nofun
  · constructor
    · intro parameters isResolved
      exact isSame.trans (congrArg (Except.map _) isResolved)
    · intro issues isFailed
      exact .inl (isSame.trans (congrArg (Except.map _) isFailed))

/-- Parameters that count as carried give way to a seed alone if they say nothing else. -/
theorem isSeeded_carried_ofSeed
    (isSilent : ∀ name ∈ (carried algorithm given?).map (·.1), name = "seed")
    (table : Table (Document Float)) :
    IsSeeded seed (table.insertAll (carried algorithm given?))
      (table.insertAll (carried algorithm (some (.ofSeed algorithm seed)))) := by
  have isSeed :
      carried algorithm (some (.ofSeed algorithm seed)) = [("seed", .integer seed)] := by
    have isOwn :
        (GivenParameters.ofSeed algorithm seed : GivenParameters Float).parameters.algorithm =
          algorithm := by
      cases algorithm <;> rfl
    change contribution algorithm _ = _
    rw [contribution, if_pos isOwn, GivenParameters.givenFields_ofSeed]
  rw [isSeed]
  exact isSeeded_insert seed
    (Table.agreeExcept_insertAll_left isSilent (Table.agreeExcept_refl _ _))

theorem isSeeded_carried_withSeed
    {given : GivenParameters Float}
    (isOwn : given.parameters.algorithm = algorithm)
    (table : Table (Document Float)) :
    IsSeeded seed (table.insertAll (carried algorithm (some given)))
      (table.insertAll (carried algorithm (some (given.withSeed seed)))) := by
  have isOwnToo : (given.withSeed seed).parameters.algorithm = algorithm := by
    rw [← isOwn]
    unfold GivenParameters.withSeed
    cases given.parameters <;> rfl
  have areFields (other : GivenParameters Float) (isOwn : other.parameters.algorithm = algorithm) :
      carried algorithm (some other) = other.givenFields := by
    change contribution algorithm other = _
    rw [contribution, if_pos isOwn]
  rw [areFields given isOwn, areFields _ isOwnToo]
  exact given.isSeeded_givenFields_withSeed seed table

end Settings

namespace Command

open Settings

variable {problem : AnyProblem Float} {algorithm : Algorithm} {seed : Int}

theorem parameters_seeded_of_own
    {given : GivenParameters Float}
    (isGiven : problem.base.parameters = some given)
    (isOwn : given.parameters.algorithm = algorithm) :
    (seeded problem algorithm seed).base.parameters = some (given.withSeed seed) := by
  cases problem <;> simp_all [seeded, AnyProblem.mapBase, AnyProblem.base]

theorem parameters_seeded_of_foreign
    (isForeign : ∀ given, problem.base.parameters = some given →
      given.parameters.algorithm ≠ algorithm) :
    (seeded problem algorithm seed).base.parameters = some (.ofSeed algorithm seed) := by
  cases problem <;>
    simp only [seeded, AnyProblem.mapBase, AnyProblem.base] at isForeign ⊢ <;>
    split <;> simp_all

/-- What the parameters of another strategy contribute is what they say about the fields that all
strategies share. -/
theorem mem_given_of_mem_carried
    {given : GivenParameters Float}
    (isForeign : given.parameters.algorithm ≠ algorithm)
    {name : String}
    (isCarried : name ∈ (carried algorithm (some given)).map (·.1)) :
    name ∈ given.given ∧ name ∈ SharedParameters.fieldNames := by
  change name ∈ (contribution algorithm given).map (·.1) at isCarried
  rw [contribution, if_neg isForeign] at isCarried
  obtain ⟨field, member, rfl⟩ := List.mem_map.mp isCarried
  obtain ⟨isGiven, isShared⟩ := List.mem_filter.mp member
  exact ⟨List.contains_iff_mem.mp (List.mem_filter.mp isGiven).2, List.contains_iff_mem.mp isShared⟩

/-- A strategy works with the same parameters, but for the seed, once a problem has a seed, as long
as the problem carries parameters of that strategy, or parameters of another one that say nothing
about what all strategies share.  In any case they are those of the problem with all parameters of
other strategies taken away. -/
theorem seeded_resolves_alike
    (settings : Settings)
    (problem : AnyProblem Float)
    (algorithm : Algorithm)
    (seed : Int) :
    settings.ResolvesWithSeed algorithm seed
        (problem.base.parameters.filter (·.parameters.algorithm = algorithm))
        (seeded problem algorithm seed).base.parameters ∧
      ((∀ given, problem.base.parameters = some given →
          given.parameters.algorithm ≠ algorithm →
          ∀ name ∈ given.given, name ∈ SharedParameters.fieldNames → name = "seed") →
        settings.ResolvesWithSeed algorithm seed problem.base.parameters
          (seeded problem algorithm seed).base.parameters) := by
  cases isGiven : problem.base.parameters with
  | none =>
      rw [parameters_seeded_of_foreign fun given isSome => by simp [isGiven] at isSome]
      have resolvesAlike : settings.ResolvesWithSeed algorithm seed none _ :=
        resolvesWithSeed_of_isSeeded (isSeeded_carried_ofSeed (by simp [carried]))
      exact ⟨resolvesAlike, fun _ => resolvesAlike⟩
  | some given =>
      by_cases isOwn : given.parameters.algorithm = algorithm
      · rw [parameters_seeded_of_own isGiven isOwn, Option.filter_some_pos (by simpa using isOwn)]
        have resolvesAlike :
            settings.ResolvesWithSeed algorithm seed (some given) (some (given.withSeed seed)) :=
          resolvesWithSeed_of_isSeeded (isSeeded_carried_withSeed isOwn)
        exact ⟨resolvesAlike, fun _ => resolvesAlike⟩
      · have isForeign :
            ∀ other, problem.base.parameters = some other →
              other.parameters.algorithm ≠ algorithm := by
          intro other isOther
          rw [isGiven] at isOther
          exact Option.some.inj isOther ▸ isOwn
        rw [parameters_seeded_of_foreign isForeign,
          Option.filter_some_neg (by simpa using isOwn)]
        refine ⟨resolvesWithSeed_of_isSeeded (isSeeded_carried_ofSeed (by simp [carried])),
          fun saysNothing => resolvesWithSeed_of_isSeeded (isSeeded_carried_ofSeed ?_)⟩
        intro name isCarried
        obtain ⟨isNamed, isShared⟩ := mem_given_of_mem_carried isOwn isCarried
        exact saysNothing given rfl isOwn name isNamed isShared

section OneIteration

/-- A problem whose parameters ask for one iteration of an evolutionary strategy. -/
def oneIterationProblem : Problem Float where
  identifier := "p"
  name := ""
  kind := .constraintSatisfaction
  description := ""
  objectives := [.minimizing "f" "x" 1 0 ""]
  constraints := []
  decisions := [⟨"v", "x", .integer, some 0, some 3, none, none, ""⟩]
  parameters := some
    { parameters := .genetic { (.usual 1000 : GeneticParameters Float) with maxIterations := 1 }
      given := ["algorithm", "max_iterations"] }
  status := .pending

/-- The iterations that a strategy takes at most for a problem, if it can be set up for it. -/
def iterationsOf (algorithm : Algorithm) (problem : AnyProblem Float) : Option Nat :=
  (Settings.usual.resolve algorithm problem.base.parameters).toOption.map (·.shared.maxIterations)

/-- With a seed, the evolutionary strategy still takes one iteration. -/
theorem oneIteration_resolves_alike :
    iterationsOf .genetic (.generic oneIterationProblem) = some 1 ∧
      Settings.usual.ResolvesWithSeed .genetic 7
        (AnyProblem.generic oneIterationProblem).base.parameters
        (seeded (.generic oneIterationProblem) .genetic 7).base.parameters ∧
      iterationsOf .genetic (seeded (.generic oneIterationProblem) .genetic 7) = some 1 := by
  refine ⟨by decide +kernel, ?_, by decide +kernel⟩
  refine (seeded_resolves_alike .usual (.generic oneIterationProblem) .genetic 7).2 ?_
  intro given isGiven isForeign
  obtain rfl : _ = given := Option.some.inj isGiven
  exact absurd rfl isForeign

/-- The limit of iterations holds for backtracking, too, but not once the problem has a seed. -/
theorem oneIteration_is_lost_with_seed :
    iterationsOf .backtracking (.generic oneIterationProblem) = some 1 ∧
      iterationsOf .backtracking (seeded (.generic oneIterationProblem) .backtracking 7) =
        some 1000 ∧
      ¬ Settings.usual.ResolvesWithSeed .backtracking 7
          (AnyProblem.generic oneIterationProblem).base.parameters
          (seeded (.generic oneIterationProblem) .backtracking 7).base.parameters := by
  have one : iterationsOf .backtracking (.generic oneIterationProblem) = some 1 := by
    decide +kernel
  have many :
      iterationsOf .backtracking (seeded (.generic oneIterationProblem) .backtracking 7) =
        some 1000 := by
    decide +kernel
  refine ⟨one, many, fun resolvesAlike => ?_⟩
  cases isResolved :
      Settings.usual.resolve .backtracking
        (AnyProblem.generic oneIterationProblem).base.parameters with
  | error issues =>
      rw [iterationsOf, isResolved] at one
      exact absurd one nofun
  | ok parameters =>
      rw [iterationsOf, isResolved] at one
      rw [iterationsOf, resolvesAlike.1 parameters isResolved] at many
      have isOne : parameters.shared.maxIterations = 1 := Option.some.inj one
      have isMany : parameters.shared.maxIterations = 1000 := by
        cases parameters <;> exact Option.some.inj many
      omega

end OneIteration

end Command

end Optima
