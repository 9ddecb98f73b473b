import Manuscript.Configuration
import Mathlib.Data.List.Induction

/-!
# The last setting counts

Settings are changed one after the other, some of them by way of a normal form, and are checked only
at the end. So all that counts is the last argument that each field was given
(`Settings.Field.last?`), and the default for a field that was never given one. This is carried by
one induction over the changes, from the front, with one more change at the end
(`Settings.ofChanges_eq`). This holds of the callback as of everything else, whatever its type: the
one that was given last is kept. Whatever is said of sequences of changes is then said of last
arguments: changes to different fields change places, and a change that is followed by another one
to the same field may as well be left out.

Main statement: `Configuration.lastCounts`.
-/

namespace Manuscript

variable {Callback : Type}

namespace Settings

/-- The fields of the settings. -/
inductive Field
  | outputDirectory
  | contentDirectory
  | sourceExtension
  | targetExtension
  | concurrency
  | closeUnterminated
  | callback
deriving DecidableEq, Repr

namespace Field

/-- What a change to a field is given. -/
def Argument (Callback : Type) : Field → Type
  | outputDirectory | contentDirectory => Path
  | sourceExtension | targetExtension => Text
  | concurrency => Nat
  | closeUnterminated => Bool
  | callback => Callback

/-- What a change is given, if it is one to this field. -/
def argument? : (field : Field) → Setting Callback → Option (field.Argument Callback)
  | outputDirectory, .outputDirectory path => some path
  | contentDirectory, .contentDirectory path => some path
  | sourceExtension, .sourceExtension extension => some extension
  | targetExtension, .targetExtension extension => some extension
  | concurrency, .concurrency count => some count
  | closeUnterminated, .closeUnterminated value => some value
  | callback, .callback given => some given
  | _, _ => none

/-- The last argument that some changes give a field. -/
def last? (field : Field) (changes : List (Setting Callback)) :
    Option (field.Argument Callback) :=
  (changes.filterMap field.argument?).getLast?

end Field

/-- The settings by the last arguments. An extension is taken without one period at its start, and
at least one document is in flight. -/
def byLast (changes : List (Setting Callback)) : Settings Callback where
  outputDirectory := (Field.outputDirectory.last? changes).getD (Path.ofString "tex")
  contentDirectory := (Field.contentDirectory.last? changes).getD (Path.ofString "content")
  sourceExtension := dropPeriod ((Field.sourceExtension.last? changes).getD "md".toList)
  targetExtension := dropPeriod ((Field.targetExtension.last? changes).getD "tex".toList)
  concurrency := max ((Field.concurrency.last? changes).getD (4 : Nat)) 1
  closeUnterminated := (Field.closeUnterminated.last? changes).getD false
  callback := Field.callback.last? changes

end Settings

/-- The field that a change is made to. -/
def Setting.field : Setting Callback → Settings.Field
  | outputDirectory _ => .outputDirectory
  | contentDirectory _ => .contentDirectory
  | sourceExtension _ => .sourceExtension
  | targetExtension _ => .targetExtension
  | concurrency _ => .concurrency
  | closeUnterminated _ => .closeUnterminated
  | callback _ => .callback

namespace Settings

variable {front rest : List (Setting Callback)} {change : Setting Callback} {field : Field}

/-! ### Last arguments -/

namespace Field

theorem argument?_eq_none_iff : field.argument? change = none ↔ change.field ≠ field := by
  cases field <;> cases change <;> simp [argument?, Setting.field]

theorem last?_append (field : Field) (front rest : List (Setting Callback)) :
    field.last? (front ++ rest) = (field.last? rest).or (field.last? front) := by
  unfold last?
  rw [List.filterMap_append, List.getLast?_append]

theorem last?_singleton (field : Field) (change : Setting Callback) :
    field.last? [change] = field.argument? change := by
  unfold last?
  cases given : field.argument? change with
  | none => rw [List.filterMap_cons_none given]; rfl
  | some argument => rw [List.filterMap_cons_some given]; rfl

theorem last?_cons (field : Field) (change : Setting Callback) (rest : List (Setting Callback)) :
    field.last? (change :: rest) = (field.last? rest).or (field.argument? change) := by
  rw [← List.singleton_append, last?_append, last?_singleton]

/-- Changes to different fields do not get into each other's way. -/
theorem last?_exchange (field : Field) {first second : Setting Callback}
    (differ : first.field ≠ second.field) (front rest : List (Setting Callback)) :
    field.last? (front ++ second :: first :: rest) =
      field.last? (front ++ first :: second :: rest) := by
  have aside : field.argument? first = none ∨ field.argument? second = none := by
    rw [argument?_eq_none_iff, argument?_eq_none_iff]
    by_contra both
    simp only [not_or, not_not] at both
    exact differ (both.1.trans both.2.symm)
  simp only [last?_append, last?_cons]
  rcases aside with none | none
  · simp only [none, Option.or_none]
  · simp only [none, Option.or_none]

/-- A change that is made again leaves nothing behind. -/
theorem last?_overwrite (field : Field) {first second : Setting Callback}
    (same : first.field = second.field) (front between rest : List (Setting Callback)) :
    field.last? (front ++ (between ++ second :: rest)) =
      field.last? (front ++ first :: (between ++ second :: rest)) := by
  have idle : (field.last? (between ++ second :: rest)).or (field.argument? first) =
      field.last? (between ++ second :: rest) := by
    by_cases own : second.field = field
    · -- the later change gives an argument, so there is one to be last
      have given : (field.last? (between ++ second :: rest)).isSome := by
        have present : (field.argument? second).isSome := by
          rw [Option.isSome_iff_ne_none]
          exact fun none => argument?_eq_none_iff.1 none own
        simp [last?_append, last?_cons, Option.isSome_or, present]
      obtain ⟨argument, last⟩ := Option.isSome_iff_exists.1 given
      rw [last, Option.some_or]
    · have none : field.argument? first = none := argument?_eq_none_iff.2 (same.trans_ne own)
      rw [none, Option.or_none]
  rw [last?_append field front, last?_append field front, last?_cons field first, idle]

end Field

/-! ### Settings by the last arguments -/

/-- **One more change** at the end. -/
theorem byLast_concat (changes : List (Setting Callback)) (change : Setting Callback) :
    byLast (changes ++ [change]) = (byLast changes).apply change := by
  unfold byLast
  simp only [Field.last?_append, Field.last?_singleton]
  -- the field of the change takes its argument, and every other one keeps what it has
  cases change <;> rfl

/-- **Only the last argument of each field counts.** -/
theorem ofChanges_eq (changes : List (Setting Callback)) : ofChanges changes = byLast changes := by
  induction changes using List.reverseRecOn with
  | nil => rfl
  | append_singleton changes change ih =>
    calc ofChanges (changes ++ [change])
      _ = (ofChanges changes).apply change := List.foldl_append
      _ = byLast (changes ++ [change]) := by rw [ih, byLast_concat]

theorem byLast_congr {changes other : List (Setting Callback)}
    (agree : ∀ field : Field, field.last? changes = field.last? other) :
    byLast changes = byLast other := by
  unfold byLast
  simp only [agree]

/-- There is always room for one document. -/
theorem concurrency_byLast_pos (changes : List (Setting Callback)) :
    0 < (byLast changes).concurrency :=
  Nat.lt_of_lt_of_le Nat.zero_lt_one (Nat.le_max_right _ _)

end Settings

namespace Configuration

open Settings (byLast)

variable {changes other : List (Setting Callback)}

theorem ofChanges_congr
    (agree : ∀ field : Settings.Field, field.last? changes = field.last? other) :
    ofChanges changes = ofChanges other := by
  unfold ofChanges
  rw [Settings.ofChanges_eq, Settings.ofChanges_eq, Settings.byLast_congr agree]

/-! ### What is checked at the end -/

section Checks

variable {settings : Settings Callback}

theorem ofSettings_of_bare (source : IsBareExtension settings.sourceExtension)
    (target : IsBareExtension settings.targetExtension) (room : 0 < settings.concurrency) :
    ofSettings settings = .ok ⟨settings, source, target, room⟩ := by
  unfold ofSettings
  rw [dif_pos source, dif_pos target, dif_pos room]

/-- A bad source extension is refused, whatever else is wrong. -/
theorem ofSettings_of_source (source : ¬ IsBareExtension settings.sourceExtension) :
    ofSettings settings = .error (.ofExtension .source settings.sourceExtension) := by
  unfold ofSettings
  rw [dif_neg source]

theorem ofSettings_of_target (source : IsBareExtension settings.sourceExtension)
    (target : ¬ IsBareExtension settings.targetExtension) :
    ofSettings settings = .error (.ofExtension .target settings.targetExtension) := by
  unfold ofSettings
  rw [dif_pos source, dif_neg target]

theorem toSettings_of_ofSettings {config : Configuration Callback}
    (made : ofSettings settings = .ok config) : config.toSettings = settings := by
  unfold ofSettings at made
  split at made
  · split at made
    · split at made
      · obtain rfl := Except.ok.inj made
        rfl
      · cases made
    · cases made
  · cases made

/-- Where there is room for a document, one of the extensions is refused or none, and the source
extension is checked first. -/
theorem exists_role_of_ofSettings {error : ConfigurationError} (room : 0 < settings.concurrency)
    (refused : ofSettings settings = .error error) : ∃ role extension,
      error = .ofExtension role extension ∧
        (role = .source ↔ ¬ IsBareExtension settings.sourceExtension) := by
  by_cases source : IsBareExtension settings.sourceExtension
  · by_cases target : IsBareExtension settings.targetExtension
    · cases (ofSettings_of_bare source target room).symm.trans refused
    · obtain rfl := Except.error.inj ((ofSettings_of_target source target).symm.trans refused)
      exact ⟨.target, settings.targetExtension, rfl, by simp [source]⟩
  · obtain rfl := Except.error.inj ((ofSettings_of_source source).symm.trans refused)
    exact ⟨.source, settings.sourceExtension, rfl, by simp [source]⟩

end Checks

/-- What is told about an extension names its role first. -/
theorem exists_message_ofExtension (role : ExtensionRole) (extension : Text) : ∃ rest : Text,
    (ConfigurationError.ofExtension role extension).message =
      ConfigurationError.roleName role ++ (" extension must ".toList ++ rest) := by
  have empty : " extension must not be empty".toList =
      " extension must ".toList ++ "not be empty".toList := by
    decide +kernel
  have notBare : " extension must be a bare extension like 'md', got '".toList =
      " extension must ".toList ++ "be a bare extension like 'md', got '".toList := by
    decide +kernel
  unfold ConfigurationError.ofExtension
  split
  · exact ⟨_, congrArg _ empty⟩
  · refine ⟨"be a bare extension like 'md', got '".toList ++ (extension ++ "'".toList), ?_⟩
    show ConfigurationError.roleName role ++
      " extension must be a bare extension like 'md', got '".toList ++ extension ++ "'".toList = _
    rw [notBare, List.append_assoc, List.append_assoc, List.append_assoc]

theorem ofExtension_ne_noConcurrency (role : ExtensionRole) (extension : Text) :
    ConfigurationError.ofExtension role extension ≠ .noConcurrency := by
  unfold ConfigurationError.ofExtension
  split
  · exact ConfigurationError.noConfusion
  · exact ConfigurationError.noConfusion

/-- What some changes come to, told by the last argument that each field was given. -/
structure LastCounts (changes : List (Setting Callback)) : Prop where
  /-- A configuration is made iff both extensions are bare: not empty, and without a slash, a
  backslash and a period. -/
  succeeds : (∃ config, ofChanges changes = .ok config) ↔
    IsBareExtension (byLast changes).sourceExtension ∧
      IsBareExtension (byLast changes).targetExtension
  /-- Each of its fields is told by the last argument, or is the default. -/
  settings : ∀ {config}, ofChanges changes = .ok config → config.toSettings = byLast changes
  /-- A bad source extension is told first. -/
  source : ¬ IsBareExtension (byLast changes).sourceExtension →
    ofChanges changes = .error (.ofExtension .source (byLast changes).sourceExtension)
  /-- A bad target extension is told if the source extension is bare. -/
  target : IsBareExtension (byLast changes).sourceExtension →
    ¬ IsBareExtension (byLast changes).targetExtension →
      ofChanges changes = .error (.ofExtension .target (byLast changes).targetExtension)
  /-- The failure is that of an invalid configuration, and its text starts with the role of the bad
  extension. -/
  told : ∀ {error}, ofChanges changes = .error error → ∃ role rest,
    error.toFailure =
        .invalidConfig (ConfigurationError.roleName role ++ (" extension must ".toList ++ rest)) ∧
      (role = .source ↔ ¬ IsBareExtension (byLast changes).sourceExtension)
  /-- The number of documents in flight is never refused. -/
  neverRefused : ofChanges changes ≠ .error .noConcurrency
  /-- Changes with the same last arguments come to the same. -/
  congr : ∀ {other : List (Setting Callback)},
    (∀ field : Settings.Field, field.last? other = field.last? changes) →
      ofChanges other = ofChanges changes
  /-- Neighbouring changes to different fields commute. -/
  exchange : ∀ {front rest first second}, changes = front ++ first :: second :: rest →
    first.field ≠ second.field → ofChanges (front ++ second :: first :: rest) = ofChanges changes
  /-- A change does no harm, whatever it is, if the same field is changed again. -/
  overwrite : ∀ {front between rest first second},
    changes = front ++ first :: (between ++ second :: rest) → first.field = second.field →
      ofChanges (front ++ (between ++ second :: rest)) = ofChanges changes

/-- **The last setting counts.** -/
theorem lastCounts (changes : List (Setting Callback)) : LastCounts changes := by
  have checked : ofChanges changes = ofSettings (byLast changes) :=
    congrArg ofSettings (Settings.ofChanges_eq changes)
  have room : 0 < (byLast changes).concurrency := Settings.concurrency_byLast_pos changes
  have settings {config : Configuration Callback} (made : ofChanges changes = .ok config) :
      config.toSettings = byLast changes :=
    toSettings_of_ofSettings (checked.symm.trans made)
  have role {error : ConfigurationError} (refused : ofChanges changes = .error error) :=
    exists_role_of_ofSettings room (checked.symm.trans refused)
  refine ⟨⟨?_, ?_⟩, settings, fun source => ?_, fun source target => ?_, ?_, ?_, ofChanges_congr,
    ?_, ?_⟩
  · -- a configuration carries the proof that its extensions are bare
    rintro ⟨config, made⟩
    rw [← settings made]
    exact ⟨config.sourceExtension_bare, config.targetExtension_bare⟩
  · rintro ⟨source, target⟩
    exact ⟨_, checked.trans (ofSettings_of_bare source target room)⟩
  · exact checked.trans (ofSettings_of_source source)
  · exact checked.trans (ofSettings_of_target source target)
  · intro error refused
    obtain ⟨role, extension, rfl, first⟩ := role refused
    obtain ⟨rest, message⟩ := exists_message_ofExtension role extension
    exact ⟨role, rest, congrArg Failure.invalidConfig message, first⟩
  · intro refused
    obtain ⟨role, extension, same, -⟩ := role refused
    exact ofExtension_ne_noConcurrency role extension same.symm
  · rintro front rest first second rfl differ
    apply ofChanges_congr
    exact fun field => field.last?_exchange differ front rest
  · rintro front between rest first second rfl same
    apply ofChanges_congr
    exact fun field => field.last?_overwrite same front between rest

-- A period too many is refused, and one that is given up again is not. Of two callbacks, here two
-- numbers, the second is kept.
example :
    let wrong : List (Setting Nat) := [.callback 1, .sourceExtension "..md".toList]
    ofChanges (wrong ++ [.targetExtension "".toList]) =
        .error (.notBareExtension .source ".md".toList) ∧
      (ofChanges (wrong ++ [.sourceExtension ".md".toList, .callback 2])).map (·.callback) =
        .ok (some 2) := by
  decide +kernel

end Configuration
end Manuscript
