import Mathlib.Data.List.DropRight
import Mathlib.Data.List.Induction
import EightBit.Diagnostics

namespace EightBit

/-!
# Selecting diagnostic messages

A list of names selects the categories that one of its parts names, in whatever case and
with whatever blanks around it.  Order, repetitions and parts that name nothing do not
matter (`Alike`).

The variable that holds the list is read when the selection is first needed, and then no
more until the memory is cleared, also when the list has selected nothing.  Which of the
values that were assigned counts for an answer is therefore a matter of the requests before
it: `FirstNeed` finds the one that has read the variable.
-/

namespace Text

/-- A core is what is left of a text without the blanks around it. -/
structure Stripped (text core : List Char) : Prop where
  surrounded : ∃ before after, text = before ++ core ++ after ∧
    (∀ char ∈ before, isBlank char = true) ∧ ∀ char ∈ after, isBlank char = true
  solid : ∀ present : core ≠ [],
    isBlank (core.head present) = false ∧ isBlank (core.getLast present) = false

theorem stripped_strip (text : List Char) : Stripped text (strip text) := by
  have stripped_eq : strip text = (text.dropWhile isBlank).rdropWhile isBlank := rfl
  rw [stripped_eq]
  constructor
  · refine ⟨text.takeWhile isBlank, (text.dropWhile isBlank).rtakeWhile isBlank, ?_, ?_, ?_⟩
    · rw [List.append_assoc, List.rdropWhile_append_rtakeWhile,
        List.takeWhile_append_dropWhile]
    · exact fun _ => List.mem_takeWhile_imp
    · exact fun _ => List.mem_rtakeWhile_imp
  · intro present
    constructor
    · have inFront := List.rdropWhile_prefix isBlank (text.dropWhile isBlank)
      rw [inFront.head present]
      exact List.head_dropWhile_not isBlank _
    · exact Bool.not_eq_true _ ▸ List.rdropWhile_last_not isBlank _ present

theorem strip_of_stripped {text core : List Char} (stripped : Stripped text core) :
    strip text = core := by
  rcases stripped.surrounded with ⟨before, after, rfl, blank, blank'⟩
  have stripped_eq : strip (before ++ core ++ after) =
      ((before ++ core ++ after).dropWhile isBlank).rdropWhile isBlank := rfl
  rw [stripped_eq, List.append_assoc, List.dropWhile_append_of_pos blank]
  cases core with
  | nil => rw [List.nil_append, List.dropWhile_eq_nil_iff.mpr blank', List.rdropWhile_nil]
  | cons char rest =>
      rcases stripped.solid (List.cons_ne_nil char rest) with ⟨first, last⟩
      have behind : ((char :: rest) ++ after).rdropWhile isBlank =
          (char :: rest).rdropWhile isBlank := by
        rw [List.rdropWhile, List.reverse_append,
          List.dropWhile_append_of_pos fun char member => blank' char (List.mem_reverse.mp member)]
        rfl
      have solid : ¬ isBlank char = true := Bool.eq_false_iff.mp first
      rw [List.cons_append, List.dropWhile_cons_of_neg solid, ← List.cons_append, behind]
      exact List.rdropWhile_eq_self_iff.mpr fun _ => Bool.eq_false_iff.mp last

theorem stripped_iff {text core : List Char} : Stripped text core ↔ strip text = core := by
  constructor
  · exact strip_of_stripped
  · rintro rfl
    exact stripped_strip text

end Text

namespace Diagnostics

/-!
## Names in lower case
-/

/-- What names need of a way of putting texts into lower case.  Beyond ASCII there are the
Kelvin sign, whose lower case is `k`, and characters whose lower case is beyond ASCII too, at
least in part. -/
structure Lowers (lower : List Char → List Char) : Prop where
  ascii : ∀ text, (∀ char ∈ text, char.toNat < 128) → lower text = text.map Char.toLower
  beyond : ∀ text, ∀ char ∈ text, 128 ≤ char.toNat →
    ∃ lowered ∈ lower text, 128 ≤ lowered.toNat ∨ lowered = 'k'

theorem Category.name_ascii (category : Category) :
    ∀ char ∈ category.name.toList, char.toNat < 128 ∧ char ≠ 'k' := by
  have all : category.name.toList.all
      (fun char => decide (char.toNat < 128 ∧ char ≠ 'k')) = true := by
    cases category <;> decide
  exact fun char member => of_decide_eq_true (List.all_eq_true.mp all char member)

theorem toLower_of_beyond {char : Char} (beyond : 128 ≤ char.toNat) : char.toLower = char := by
  refine dif_neg fun capital => ?_
  have upper : char.toNat ≤ 90 := capital.2
  omega

variable {lower : List Char → List Char}

theorem lowers_lowered : Lowers lowered where
  ascii := fun _ _ => rfl
  beyond := by
    intro text char member beyond
    exact ⟨char, List.mem_map.mpr ⟨char, member, toLower_of_beyond beyond⟩, Or.inl beyond⟩

/-- A text with a character beyond ASCII is no name in lower case. -/
theorem Lowers.ne_name (lowers : Lowers lower) {text : List Char} {char : Char}
    (member : char ∈ text) (beyond : 128 ≤ char.toNat) (category : Category) :
    lower text ≠ category.name.toList := by
  intro same
  rcases lowers.beyond text char member beyond with ⟨lowered, within, shape⟩
  rw [same] at within
  rcases category.name_ascii lowered within with ⟨ascii, notKelvin⟩
  rcases shape with above | kelvin
  · omega
  · exact notKelvin kelvin

/-- Texts are the same names in lower case, however they are put into it. -/
theorem Lowers.eq_name_iff (lowers : Lowers lower) (text : List Char) (category : Category) :
    lower text = category.name.toList ↔ lowered text = category.name.toList := by
  by_cases ascii : ∀ char ∈ text, char.toNat < 128
  · rw [lowers.ascii text ascii]
    exact Iff.rfl
  · rcases not_forall₂.mp ascii with ⟨char, member, beyond⟩
    have beyond := Nat.not_lt.mp beyond
    exact iff_of_false (lowers.ne_name member beyond category)
      (lowers_lowered.ne_name member beyond category)

/-!
## Lists of names
-/

/-- A part of a list is a name, once it is stripped and in lower case. -/
def Names (lower : List Char → List Char) (parts : List (List Char)) (name : List Char) : Prop :=
  ∃ part ∈ parts, ∃ core, Text.Stripped part core ∧ lower core = name

def parts (text : String) : List (List Char) :=
  text.toList.splitOn ','

/-- Lists whose parts differ only in what does not matter: order, repetitions, blanks around
them, case, and parts that are no names, among them empty ones. -/
inductive Alike (lower : List Char → List Char) : List (List Char) → List (List Char) → Prop where
  | reordered {first second : List (List Char)} (permuted : first.Perm second) :
      Alike lower first second
  | repeated {part : List Char} {rest : List (List Char)} (member : part ∈ rest) :
      Alike lower (part :: rest) rest
  | restyled {part other core core' : List Char} {rest : List (List Char)}
      (stripped : Text.Stripped part core) (stripped' : Text.Stripped other core')
      (same : lower core = lower core') : Alike lower (part :: rest) (other :: rest)
  | unknown {part core : List Char} {rest : List (List Char)}
      (stripped : Text.Stripped part core)
      (noName : ∀ category : Category, lower core ≠ category.name.toList) :
      Alike lower (part :: rest) rest
  | symm {first second : List (List Char)} (alike : Alike lower first second) :
      Alike lower second first
  | trans {first second third : List (List Char)} (alike : Alike lower first second)
      (alike' : Alike lower second third) : Alike lower first third

theorem names_cons {part core name : List Char} {rest : List (List Char)}
    (stripped : Text.Stripped part core) :
    Names lower (part :: rest) name ↔ lower core = name ∨ Names lower rest name := by
  simp only [Names, List.exists_mem_cons_iff, Text.stripped_iff, exists_eq_left',
    Text.strip_of_stripped stripped]

theorem Alike.names_iff {first second : List (List Char)} (alike : Alike lower first second)
    (category : Category) :
    Names lower first category.name.toList ↔ Names lower second category.name.toList := by
  induction alike with
  | reordered permuted =>
      simp only [Names, permuted.mem_iff]
  | @repeated part rest member =>
      rw [names_cons (Text.stripped_strip part)]
      refine or_iff_right_of_imp fun named => ?_
      exact ⟨part, member, _, Text.stripped_strip part, named⟩
  | restyled stripped stripped' same => rw [names_cons stripped, names_cons stripped', same]
  | unknown stripped noName =>
      rw [names_cons stripped]
      exact or_iff_right (noName category)
  | symm _ inductionHypothesis => exact inductionHypothesis.symm
  | trans _ _ inductionHypothesis inductionHypothesis' =>
      exact inductionHypothesis.trans inductionHypothesis'

theorem Lowers.mem_ofText_iff (lowers : Lowers lower) (text : String) (category : Category) :
    category ∈ (Selection.ofText text).categories ↔
      Names lower (parts text) category.name.toList := by
  simp only [Selection.ofText, List.mem_filter, Category.mem_every, true_and, decide_eq_true_iff,
    listedNames, List.mem_map, Names, Text.stripped_iff, exists_eq_left', lowers.eq_name_iff]
  rfl

theorem Lowers.ofText_eq_of_alike (lowers : Lowers lower) {text other : String}
    (alike : Alike lower (parts text) (parts other)) :
    Selection.ofText text = Selection.ofText other := by
  have same : ∀ category : Category,
      category.name.toList ∈ listedNames text ↔ category.name.toList ∈ listedNames other := by
    intro category
    have members := (lowers.mem_ofText_iff text category).trans
      ((alike.names_iff category).trans (lowers.mem_ofText_iff other category).symm)
    simpa only [Selection.ofText, List.mem_filter, Category.mem_every, true_and,
      decide_eq_true_iff] using members
  simp only [Selection.ofText, same]

/-- Another order, capitals, blanks, a repetition, an empty part and one that names nothing. -/
example : Selection.ofText "mem, CPU ,,bogus,mem" = Selection.ofText "cpu,mem" := by
  decide +kernel

def Selection.names (selection : Selection) : List String :=
  selection.categories.map Category.name

/-- The names that a list can select. -/
def knownNames : List String :=
  ["cpu", "mem", "loader", "app", "trace", "all"]

theorem mem_knownNames_iff {name : String} :
    name ∈ knownNames ↔ ∃ category : Category, category.name = name := by
  constructor
  · intro known
    have every : ∀ name ∈ knownNames, ∃ category ∈ Category.every, category.name = name := by
      decide
    rcases every name known with ⟨category, _, same⟩
    exact ⟨category, same⟩
  · rintro ⟨category, rfl⟩
    cases category <;> decide

/-- The selection of a list has the known names among its parts. -/
theorem Lowers.mem_names_iff (lowers : Lowers lower) (text name : String) :
    name ∈ (Selection.ofText text).names ↔
      name ∈ knownNames ∧ Names lower (parts text) name.toList := by
  rw [Selection.names, List.mem_map, mem_knownNames_iff]
  constructor
  · rintro ⟨category, wanted, rfl⟩
    exact ⟨⟨category, rfl⟩, (lowers.mem_ofText_iff text category).mp wanted⟩
  · rintro ⟨⟨category, rfl⟩, named⟩
    exact ⟨category, (lowers.mem_ofText_iff text category).mpr named, rfl⟩

/-- What a selection has to do with a category that is asked for, if one is. -/
inductive Selection.Wants (lower : List Char → List Char) (selection : Selection) :
    Option String → Prop where
  | everything {category : Option String} (all : "all" ∈ selection.names) :
      Wants lower selection category
  | anything (some : selection.names ≠ []) : Wants lower selection none
  | named {category name : String} (wanted : name ∈ selection.names)
      (same : lower category.toList = name.toList) : Wants lower selection (some category)

theorem Selection.name_mem_names_iff (selection : Selection) (category : Category) :
    category.name ∈ selection.names ↔ category ∈ selection.categories := by
  have injective : Function.Injective Category.name := by
    intro first second
    cases first <;> cases second <;> decide
  exact List.mem_map_of_injective injective

theorem Lowers.wants_iff (lowers : Lowers lower) (selection : Selection)
    (category : Option String) :
    selection.wants category = true ↔ selection.Wants lower category := by
  have all_iff : "all" ∈ selection.names ↔ .all ∈ selection.categories :=
    selection.name_mem_names_iff .all
  have isEmpty_iff : selection.categories.isEmpty = true ↔ selection.names = [] := by
    rw [List.isEmpty_iff, Selection.names, List.map_eq_nil_iff]
  simp only [Selection.wants.eq_def, isEmpty_iff, ← all_iff]
  constructor
  · intro wants
    split at wants
    · cases wants
    · rename_i some
      split at wants
      · exact .everything ‹_›
      · cases category with
        | none => exact .anything some
        | some category =>
            rcases List.any_eq_true.mp wants with ⟨wanted, member, same⟩
            refine .named ((selection.name_mem_names_iff wanted).mpr member) ?_
            exact (lowers.eq_name_iff _ wanted).mpr (beq_iff_eq.mp same).symm
  · intro wants
    cases wants with
    | everything all => rw [if_neg (List.ne_nil_of_mem all), if_pos all]
    | anything some =>
        rw [if_neg some]
        split <;> rfl
    | @named category name wanted same =>
        rcases List.mem_map.mp wanted with ⟨found, member, rfl⟩
        have any : (selection.categories.any fun wanted =>
            wanted.name.toList == lowered category.toList) = true :=
          List.any_eq_true.mpr
            ⟨found, member, beq_iff_eq.mpr ((lowers.eq_name_iff _ found).mp same).symm⟩
        rw [if_neg (List.ne_nil_of_mem wanted)]
        split
        · rfl
        · exact any

/-!
## Requests
-/

/-- What can be asked of diagnostics, and what is done to the variable and to the memory.  The
columns of a message have a limit. -/
inductive Request where
  | assign (value : String)
  | forget
  | list
  | ask (category : Option String)
  | log (category template : String) (args : List Text.Value) (limit : Extent.Limit := .usual)

/-- What a request gives back.  A message gives back its line, if it leaves one. -/
inductive Answer where
  | done
  | listed (selection : Selection)
  | wanted (answer : Bool)
  | logged (line : Except Text.Template.Overflow (Option String))

namespace Request

def needs : Request → Bool
  | assign _ | forget => false
  | list | ask _ | log .. => true

def reply (selection : Selection) : Request → Answer
  | assign _ | forget => .done
  | list => .listed selection
  | ask category => .wanted (selection.wants category)
  | log category template args limit =>
    .logged (Diagnostics.log selection category template args limit)

def perform (session : Session) : Request → Session
  | assign value => session.assign value
  | forget => session.forget
  | list | ask _ | log .. => session.consulted

end Request

namespace Session

def after (session : Session) (requests : List Request) : Session :=
  requests.foldl Request.perform session

/-- The answers to requests, one after the other. -/
def answers (session : Session) : List Request → List Answer
  | [] => []
  | request :: rest =>
    request.reply session.selection :: (request.perform session).answers rest

theorem answers_at (session : Session) (past : List Request) (request : Request)
    (later : List Request) :
    (session.answers (past ++ request :: later))[past.length]? =
      some (request.reply (session.after past).selection) := by
  induction past generalizing session with
  | nil => rfl
  | cons first past inductionHypothesis => exact inductionHypothesis (first.perform session)

end Session

/-- The value that was assigned last, or the one from before. -/
def settingAfter (setting : String) (requests : List Request) : String :=
  requests.foldl (fun held request =>
    match request with
    | .assign value => value
    | _ => held) setting

/-- Whatever has needed the selection was followed by clearing the memory. -/
def Forgotten (requests : List Request) : Prop :=
  ∀ earlier request later, requests = earlier ++ request :: later → request.needs = true →
    .forget ∈ later

/-- The first request since the memory was last cleared that has needed the selection comes
right behind some others. -/
structure FirstNeed (requests before : List Request) : Prop where
  reached : ∃ first between, requests = before ++ first :: between ∧ first.needs = true ∧
    .forget ∉ between
  forgotten : Forgotten before

variable {requests before : List Request}

@[simp] theorem Session.setting_after (session : Session) (requests : List Request) :
    (session.after requests).setting = settingAfter session.setting requests := by
  induction requests generalizing session with
  | nil => rfl
  | cons request rest inductionHypothesis =>
      rw [Session.after, List.foldl_cons]
      refine (inductionHypothesis _).trans ?_
      cases request <;> rfl

@[simp] theorem Session.after_append (session : Session) (requests later : List Request) :
    session.after (requests ++ later) = (session.after requests).after later :=
  List.foldl_append

/-!
## Which value counts
-/

/-- The last of some requests is the one they are divided at, or comes after it. -/
theorem last_eq_or_later {past between : List Request} {last first : Request}
    (divided : past ++ [last] = before ++ first :: between) :
    (past = before ∧ last = first ∧ between = []) ∨
      ∃ rest, between = rest ++ [last] ∧ past = before ++ first :: rest := by
  rcases List.eq_nil_or_concat between with rfl | ⟨rest, final, rfl⟩
  · rcases List.append_inj' divided rfl with ⟨past_eq, last_eq⟩
    exact Or.inl ⟨past_eq, List.singleton_inj.mp last_eq, rfl⟩
  · rw [List.concat_eq_append, ← List.cons_append, ← List.append_assoc] at divided
    rcases List.append_inj' divided rfl with ⟨past_eq, last_eq⟩
    refine Or.inr ⟨rest, ?_, past_eq⟩
    rw [List.concat_eq_append, List.singleton_inj.mp last_eq]

namespace Forgotten

variable {request : Request}

theorem nil : Forgotten [] := by
  intro earlier need later nothing _
  exact absurd nothing.symm (List.append_ne_nil_of_right_ne_nil _ (List.cons_ne_nil _ _))

theorem append_forget (requests : List Request) : Forgotten (requests ++ [.forget]) := by
  intro earlier need later divided needs
  rcases last_eq_or_later divided with ⟨_, rfl, _⟩ | ⟨rest, rfl, _⟩
  · cases needs
  · exact List.mem_append_right rest (List.mem_singleton_self _)

theorem append (forgotten : Forgotten requests) (needless : request.needs = false) :
    Forgotten (requests ++ [request]) := by
  intro earlier need later divided needs
  rcases last_eq_or_later divided with ⟨_, rfl, _⟩ | ⟨rest, rfl, rfl⟩
  · rw [needs] at needless
    cases needless
  · exact List.mem_append_left _ (forgotten earlier need rest rfl needs)

theorem of_append (forgotten : Forgotten (requests ++ [request])) (other : request ≠ .forget) :
    Forgotten requests := by
  rintro earlier need later rfl needs
  have member := forgotten earlier need (later ++ [request]) (List.append_assoc _ _ _) needs
  rcases List.mem_append.mp member with within | last
  · exact within
  · exact absurd (List.mem_singleton.mp last).symm other

theorem needs_eq_false (forgotten : Forgotten (requests ++ [request])) :
    request.needs = false := by
  cases needs : request.needs with
  | false => rfl
  | true => exact absurd (forgotten requests request [] rfl needs) List.not_mem_nil

/-- Nothing is remembered when everything was forgotten. -/
theorem remembered_eq {session : Session} (fresh : session.remembered = none)
    (forgotten : Forgotten requests) : (session.after requests).remembered = none := by
  induction requests using List.reverseRecOn with
  | nil => exact fresh
  | append_singleton requests request inductionHypothesis =>
      have needless := forgotten.needs_eq_false
      rw [Session.after_append]
      cases request with
      | assign value => exact inductionHypothesis (forgotten.of_append nofun)
      | forget => rfl
      | list => cases needless
      | ask category => cases needless
      | log category template args limit => cases needless

end Forgotten

theorem Request.perform_of_needs {request : Request} (session : Session)
    (needs : request.needs = true) : request.perform session = session.consulted := by
  cases request <;> first | rfl | cases needs

/-- What is remembered stays until the memory is cleared. -/
theorem Session.remembered_after {session : Session} {selection : Selection}
    (remembered : session.remembered = some selection) (kept : .forget ∉ requests) :
    (session.after requests).remembered = some selection := by
  induction requests generalizing session with
  | nil => exact remembered
  | cons request rest inductionHypothesis =>
      rw [List.mem_cons, not_or] at kept
      rcases kept with ⟨other, later⟩
      refine inductionHypothesis ?_ later
      cases needs : request.needs with
      | true =>
          rw [Request.perform_of_needs session needs, consulted, Session.selection, remembered]
          rfl
      | false =>
          cases request with
          | assign value => exact remembered
          | forget => exact absurd rfl other
          | _ => cases needs

namespace FirstNeed

/-- The first need reads the variable, and every need up to the next clearing is answered by
what it has read. -/
theorem selection_eq {past : List Request} {request : Request} {session : Session}
    (fresh : session.remembered = none) (need : FirstNeed (past ++ [request]) before) :
    (session.after past).selection = .ofText (settingAfter session.setting before) := by
  have nothing := need.forgotten.remembered_eq fresh
  have read : (session.after before).selection =
      .ofText (settingAfter session.setting before) := by
    rw [Session.selection, nothing, Session.setting_after]
    rfl
  rcases need.reached with ⟨first, between, divided, needs, kept⟩
  rcases last_eq_or_later divided with ⟨rfl, _⟩ | ⟨rest, rfl, rfl⟩
  · exact read
  · have remembered : (first.perform (session.after before)).remembered =
        some (.ofText (settingAfter session.setting before)) := by
      rw [Request.perform_of_needs _ needs, ← read]
      rfl
    have spared : .forget ∉ rest := fun member => kept (List.mem_append_left _ member)
    rw [Session.after_append, Session.selection]
    exact congrArg (Option.getD · _) (Session.remembered_after remembered spared)

theorem append (need : FirstNeed requests before) {request : Request}
    (other : request ≠ .forget) : FirstNeed (requests ++ [request]) before := by
  rcases need.reached with ⟨first, between, rfl, needs, kept⟩
  refine ⟨⟨first, between ++ [request], List.append_assoc _ _ _, needs, ?_⟩, need.forgotten⟩
  rw [List.mem_append, List.mem_singleton, not_or]
  exact ⟨kept, other.symm⟩

end FirstNeed

/-- There is a first need, or everything was forgotten. -/
theorem forgotten_or_firstNeed (requests : List Request) :
    Forgotten requests ∨ ∃ before, FirstNeed requests before := by
  induction requests using List.reverseRecOn with
  | nil => exact Or.inl .nil
  | append_singleton requests request inductionHypothesis =>
      by_cases clears : request = .forget
      · rw [clears]
        exact Or.inl (.append_forget requests)
      · rcases inductionHypothesis with forgotten | ⟨before, need⟩
        · cases needs : request.needs with
          | false => exact Or.inl (forgotten.append needs)
          | true =>
              exact Or.inr ⟨requests, ⟨request, [], rfl, needs, List.not_mem_nil⟩, forgotten⟩
        · exact Or.inr ⟨before, need.append clears⟩

theorem exists_firstNeed (past : List Request) {request : Request}
    (needs : request.needs = true) : ∃ before, FirstNeed (past ++ [request]) before := by
  rcases forgotten_or_firstNeed (past ++ [request]) with forgotten | need
  · rw [forgotten.needs_eq_false] at needs
    cases needs
  · exact need

/-- The names in a list decide which messages are wanted, and of the lists that were assigned
the one decides that the first need since the last clearing has read.  A message that is not
wanted leaves no line. -/
theorem wanted_by_first_need (lowers : Lowers lower) :
    (∀ text name, name ∈ (Selection.ofText text).names ↔
      name ∈ knownNames ∧ Names lower (parts text) name.toList) ∧
    (∀ text other, Alike lower (parts text) (parts other) →
      Selection.ofText text = Selection.ofText other) ∧
    (∀ (selection : Selection) category,
      selection.wants category = true ↔ selection.Wants lower category) ∧
    (∀ setting past request later, Request.needs request = true →
      (∃ before, FirstNeed (past ++ [request]) before) ∧
      ∀ before, FirstNeed (past ++ [request]) before →
        (Session.answers { setting } (past ++ request :: later))[past.length]? =
          some (request.reply (.ofText (settingAfter setting before)))) ∧
    ∀ (selection : Selection) category template args limit,
      ¬ selection.Wants lower (some category) →
        (Request.log category template args limit).reply selection = .logged (.ok none) := by
  refine ⟨lowers.mem_names_iff, fun _ _ => lowers.ofText_eq_of_alike, lowers.wants_iff, ?_, ?_⟩
  · intro setting past request later needs
    have fresh : Session.remembered { setting } = none := rfl
    refine ⟨exists_firstNeed past needs, fun before need => ?_⟩
    rw [Session.answers_at, need.selection_eq fresh]
  · intro selection category template args limit unwanted
    rw [← lowers.wants_iff] at unwanted
    exact congrArg Answer.logged (if_neg unwanted)

/-- Lower case by which the Kelvin sign becomes a letter. -/
def loweredKelvin (text : List Char) : List Char :=
  text.map fun char => if char = '\u212A' then 'k' else char.toLower

theorem lowers_loweredKelvin : Lowers loweredKelvin where
  ascii := by
    intro text ascii
    refine List.map_congr_left fun char member => if_neg ?_
    rintro rfl
    exact absurd (ascii _ member) (by decide)
  beyond := by
    intro text char member beyond
    refine ⟨_, List.mem_map_of_mem member, ?_⟩
    split
    · exact Or.inr rfl
    · rw [toLower_of_beyond beyond]
      exact Or.inl beyond

/-- The question has read the first list, so the second one does not count until the memory
is cleared. -/
theorem wanted_by_first_need_reassigned :
    let answers := Session.answers { setting := " CPU,,cpu ,bogus" }
      [.ask none, .assign "all", .ask (some "mem"), .forget, .ask (some "mem")]
    (Selection.ofText " CPU,,cpu ,bogus").names = ["cpu"] ∧
      answers[2]? = some (.wanted false) ∧ answers[4]? = some (.wanted true) ∧
      (Request.log "mem" "" []).reply (.ofText " CPU,,cpu ,bogus") = .logged (.ok none) := by
  rcases wanted_by_first_need lowers_loweredKelvin with ⟨_, _, wants, reads, logs⟩
  have unwanted : ¬ (Selection.ofText " CPU,,cpu ,bogus").wants (some "mem") = true := by
    decide +kernel
  have all : (Selection.ofText "all").wants (some "mem") = true := by decide +kernel
  have need : FirstNeed [.ask none, .assign "all", .ask (some "mem")] [] :=
    ⟨⟨_, _, rfl, rfl, by simp⟩, .nil⟩
  have need' : FirstNeed [.ask none, .assign "all", .ask (some "mem"), .forget, .ask (some "mem")]
      [.ask none, .assign "all", .ask (some "mem"), .forget] :=
    ⟨⟨_, _, rfl, rfl, List.not_mem_nil⟩,
      .append_forget [.ask none, .assign "all", .ask (some "mem")]⟩
  refine ⟨by decide +kernel, ?_, ?_, logs _ "mem" "" [] .usual (mt (wants _ _).mpr unwanted)⟩
  · refine ((reads _ [.ask none, .assign "all"] _ _ rfl).2 _ need).trans ?_
    exact congrArg (some <| Answer.wanted ·) (Bool.eq_false_iff.mpr unwanted)
  · refine ((reads _ [.ask none, .assign "all", .ask (some "mem"), .forget] _ _ rfl).2 _
      need').trans ?_
    exact congrArg (some <| Answer.wanted ·) all

end Diagnostics
end EightBit
