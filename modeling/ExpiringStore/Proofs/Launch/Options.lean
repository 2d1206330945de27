import ExpiringStore.Launch.Options
import ExpiringStore.Proofs.Text.Numeral

/-!
# What a command line says

A command line is read from the left, and what its flags say is taken in one by one.  Seen as a
whole it is a list of settings, each a flag by one of its names and a value, and it says what the
last setting of every flag says (`settled`).  Or it is no such list, and then it is refused for the
leftmost thing that is wrong with it (`Offends`).

Every command line begins with settings that can be taken in, and either ends there or goes on with
something wrong (`exists_settings`).  Reading the settings is settling them one after another
(`readAfter_append`), and reading on from something wrong fails (`Offends.readAfter_eq`).  From
these two everything else follows (`read_settles_or_refuses`).
-/

namespace ExpiringStore

/-! ## Flags and their values -/

namespace Flag

/-- The argument is a name of the flag. -/
def Named (f : Flag) (argument : String) : Prop :=
  argument = f.name ∨ f.shortName? = some argument

lemma ofArgument?_eq_some_iff {argument : String} {f : Flag} :
    ofArgument? argument = some f ↔ f.Named argument := by
  constructor
  · intro h
    have hfound := List.find?_some h
    rw [Bool.or_eq_true, beq_iff_eq, beq_iff_eq] at hfound
    exact hfound.imp_left Eq.symm
  · rintro (rfl | hshort)
    · cases f <;> rfl
    · cases f with
      | host =>
        obtain rfl := Option.some_inj.1 hshort
        rfl
      | port =>
        obtain rfl := Option.some_inj.1 hshort
        rfl
      | user =>
        obtain rfl := Option.some_inj.1 hshort
        rfl
      | password => cases hshort
      | defaultTtl => cases hshort

lemma ofArgument?_eq_none_iff {argument : String} :
    ofArgument? argument = none ↔ ∀ f : Flag, ¬f.Named argument := by
  rw [Option.eq_none_iff_forall_ne_some]
  exact forall_congr' fun f => not_congr ofArgument?_eq_some_iff

/-- What a flag's value has to be: a port is a 16-bit numeral, a lifetime a 64-bit numeral that is
not zero, and anything else any text. -/
def Accepts (f : Flag) (value : String) : Prop :=
  match f with
  | .port => Numeral.IsNumeral value ∧ Numeral.amount value ≤ 65535
  | .defaultTtl =>
    Numeral.IsNumeral value ∧ 1 ≤ Numeral.amount value ∧ Numeral.amount value ≤ 2 ^ 64 - 1
  | _ => True

instance (f : Flag) (value : String) : Decidable (f.Accepts value) :=
  match f with
  | .host => isTrue trivial
  | .port => inferInstanceAs (Decidable (_ ∧ _))
  | .user => isTrue trivial
  | .password => isTrue trivial
  | .defaultTtl => inferInstanceAs (Decidable (_ ∧ _))

/-- What a flag's value is refused for. -/
inductive Refuses : Flag → String → UsageError → Prop
  | port {value} (h : ¬(Numeral.IsNumeral value ∧ Numeral.amount value < UInt16.size)) :
      Refuses .port value (.invalidPort value (Numeral.fault UInt16.size value))
  | zeroTtl {value} (h : Numeral.IsNumeral value) (hzero : Numeral.amount value = 0) :
      Refuses .defaultTtl value .zeroTtl
  | defaultTtl {value} (h : ¬(Numeral.IsNumeral value ∧ Numeral.amount value < UInt64.size)) :
      Refuses .defaultTtl value (.invalidTtl value (Numeral.fault UInt64.size value))

lemma accepts_or_refuses (f : Flag) (value : String) :
    f.Accepts value ∨ ∃ e, f.Refuses value e := by
  cases f with
  | host => exact .inl trivial
  | user => exact .inl trivial
  | password => exact .inl trivial
  | port =>
    by_cases h : Numeral.IsNumeral value ∧ Numeral.amount value < UInt16.size
    · exact .inl ⟨h.1, Nat.le_of_lt_succ h.2⟩
    · exact .inr ⟨_, .port h⟩
  | defaultTtl =>
    by_cases h : Numeral.IsNumeral value ∧ Numeral.amount value < UInt64.size
    · by_cases hzero : Numeral.amount value = 0
      · exact .inr ⟨_, .zeroTtl h.1 hzero⟩
      · exact .inl ⟨h.1, Nat.pos_of_ne_zero hzero, Nat.le_of_lt_succ h.2⟩
    · exact .inr ⟨_, .defaultTtl h⟩

end Flag

namespace Options

/-! ## Settings -/

/-- The values that settings give to a flag, in order. -/
def values (f : Flag) (settings : List (Flag × String)) : List String :=
  settings.filterMap fun s => if s.1 = f then some s.2 else none

/-- The value that a flag ends up with. -/
def lastValue? (f : Flag) (settings : List (Flag × String)) : Option String :=
  (values f settings).getLast?

/-- What settings come to: the last value of each flag, or else what the environment says, or else
what is usual. -/
def settled (settings : List (Flag × String)) (environment : String → Option String) : Options where
  host := (lastValue? .host settings).getD defaultHost
  port := (lastValue? .port settings).elim defaultPort fun v => UInt16.ofNat (Numeral.amount v)
  user := ((lastValue? .user settings).or (environment userVariable)).getD defaultUser
  password := (lastValue? .password settings).or (environment passwordVariable)
  defaultExpiry := (lastValue? .defaultTtl settings).elim .never fun v =>
    .after (.ofMillis (UInt64.ofNat (Numeral.amount v)))

/-- A draft with one more setting. -/
def Draft.settle (d : Draft) (s : Flag × String) : Draft :=
  match s.1 with
  | .host => { d with host := s.2 }
  | .port => { d with port := UInt16.ofNat (Numeral.amount s.2) }
  | .user => { d with user := some s.2 }
  | .password => { d with password := some s.2 }
  | .defaultTtl =>
    { d with defaultExpiry := .after (.ofMillis (UInt64.ofNat (Numeral.amount s.2))) }

lemma Draft.put_of_accepts (d : Draft) {f : Flag} {value : String} (h : f.Accepts value) :
    d.put f value = .ok (d.settle (f, value)) := by
  cases f with
  | host => rfl
  | user => rfl
  | password => rfl
  | port =>
    have hread := Numeral.read_eq_ite (show 0 < UInt16.size by decide) value
    rw [if_pos ⟨h.1, Nat.lt_succ_of_le h.2⟩] at hread
    simp only [put, hread, settle]
  | defaultTtl =>
    have hread := Numeral.read_eq_ite (show 0 < UInt64.size by decide) value
    have hzero : Numeral.amount value ≠ 0 := Nat.ne_of_gt h.2.1
    rw [if_pos ⟨h.1, Nat.lt_succ_of_le h.2.2⟩] at hread
    simp only [put, hread, settle]

lemma Draft.put_of_refuses (d : Draft) {f : Flag} {value : String} {e : UsageError}
    (h : f.Refuses value e) : d.put f value = .error e := by
  cases h with
  | port h =>
    have hread := Numeral.read_eq_ite (show 0 < UInt16.size by decide) value
    rw [if_neg h] at hread
    simp only [put, hread]
  | zeroTtl h hzero =>
    have hread := Numeral.read_eq_ite (show 0 < UInt64.size by decide) value
    rw [hzero, if_pos ⟨h, by decide⟩] at hread
    simp only [put, hread]
  | defaultTtl h =>
    have hread := Numeral.read_eq_ite (show 0 < UInt64.size by decide) value
    rw [if_neg h] at hread
    simp only [put, hread]

lemma mem_values_iff {f : Flag} {value : String} {settings : List (Flag × String)} :
    value ∈ values f settings ↔ (f, value) ∈ settings := by
  rw [values, List.mem_filterMap]
  constructor
  · rintro ⟨⟨g, v⟩, hmem, hvalue⟩
    obtain ⟨rfl, hsame⟩ := Option.ite_none_right_eq_some.1 hvalue
    obtain rfl := Option.some_inj.1 hsame
    exact hmem
  · intro hmem
    exact ⟨(f, value), hmem, if_pos rfl⟩

/-- Only the order of values for the same flag counts. -/
lemma settled_congr {settings settings' : List (Flag × String)}
    (h : ∀ f, values f settings = values f settings') (environment : String → Option String) :
    settled settings environment = settled settings' environment := by
  simp only [settled, lastValue?, h]

lemma lastValue?_concat (f : Flag) (settings : List (Flag × String)) (s : Flag × String) :
    lastValue? f (settings ++ [s]) = if s.1 = f then some s.2 else lastValue? f settings := by
  rw [lastValue?, values, List.filterMap_append]
  split_ifs with h
  · simp [h]
  · simp [h, lastValue?, values]

/-- **Settings are taken in one after another**, and of each flag the last one stays. -/
lemma foldl_settle_blank (settings : List (Flag × String)) :
    settings.foldl Draft.settle .blank =
      { host := (lastValue? .host settings).getD defaultHost
        port := (lastValue? .port settings).elim defaultPort fun v =>
          UInt16.ofNat (Numeral.amount v)
        user := lastValue? .user settings
        password := lastValue? .password settings
        defaultExpiry := (lastValue? .defaultTtl settings).elim .never fun v =>
          .after (.ofMillis (UInt64.ofNat (Numeral.amount v))) } := by
  induction settings using List.reverseRecOn with
  | nil => rfl
  | append_singleton settings s ih =>
    obtain ⟨f, value⟩ := s
    rw [List.foldl_append, List.foldl_cons, List.foldl_nil, ih]
    simp only [lastValue?_concat]
    cases f <;> rfl

/-- What settings come to, if the admin has a name then. -/
lemma complete_foldl_settle (settings : List (Flag × String))
    (environment : String → Option String) :
    (settings.foldl Draft.settle .blank).complete environment =
      if (settled settings environment).user = "" then .error .emptyUser
      else .ok (settled settings environment) := by
  have hor (a b : Option String) : (a.orElse fun _ => b) = a.or b := by cases a <;> rfl
  rw [foldl_settle_blank, Draft.complete]
  simp only [hor, String.isEmpty_iff]
  rfl

end Options

namespace Command

open Options

/-! ## Command lines -/

/-- The arguments are settings, each a name of its flag and the value. -/
inductive Spells : List String → List (Flag × String) → Prop
  | nil : Spells [] []
  | cons {f : Flag} {argument value : String} {rest : List String}
      {settings : List (Flag × String)} (hname : f.Named argument) (hrest : Spells rest settings) :
      Spells (argument :: value :: rest) ((f, value) :: settings)

/-- The settings can be told from the arguments. -/
lemma Spells.unique {arguments : List String} {settings settings' : List (Flag × String)}
    (h : Spells arguments settings) (h' : Spells arguments settings') : settings = settings' := by
  induction h generalizing settings' with
  | nil =>
    cases h'
    rfl
  | cons hname _ ih =>
    cases h' with
    | cons hname' hrest' =>
      have hflag := (Flag.ofArgument?_eq_some_iff.2 hname).symm.trans
        (Flag.ofArgument?_eq_some_iff.2 hname')
      rw [Option.some_inj.1 hflag, ih hrest']

/-- The arguments begin with something wrong: a flag without a value, a value that its flag refuses,
or no flag where one is wanted. -/
inductive Offends : List String → UsageError → Prop
  | missingValue {f : Flag} {argument : String} (hname : f.Named argument) :
      Offends [argument] (.missingValue f)
  | refused {f : Flag} {argument value : String} {rest : List String} {e : UsageError}
      (hname : f.Named argument) (h : f.Refuses value e) : Offends (argument :: value :: rest) e
  | unknown {argument : String} {rest : List String} (h : ∀ f : Flag, ¬f.Named argument) :
      Offends (argument :: rest) (.unknownArgument argument)

/-- An argument that asks for help or for the version. -/
def Asks (argument : String) : Prop :=
  argument = "--help" ∨ argument = "--version" ∨ argument = "-v"

instance (argument : String) : Decidable (Asks argument) := inferInstanceAs (Decidable (_ ∨ _))

/-- The arguments where the reading looks for a flag: every other one, from the first on, as far as
it gets. -/
def flagPositions : List String → List String
  | [] => []
  | [argument] => [argument]
  | argument :: value :: rest =>
    match Flag.ofArgument? argument with
    | none => [argument]
    | some f => argument :: if f.Accepts value then flagPositions rest else []

/-- Why a command line is refused: for the leftmost thing wrong with it, or, if nothing is, because
the admin has no name. -/
inductive Refused (environment : String → Option String) : List String → UsageError → Prop
  | offends {front rest : List String} {settings : List (Flag × String)} {e : UsageError}
      (hfront : Spells front settings) (haccepts : ∀ s ∈ settings, s.1.Accepts s.2)
      (h : Offends rest e) : Refused environment (front ++ rest) e
  | emptyUser {arguments : List String} {settings : List (Flag × String)}
      (h : Spells arguments settings) (haccepts : ∀ s ∈ settings, s.1.Accepts s.2)
      (hempty : (settled settings environment).user = "") : Refused environment arguments .emptyUser

variable {environment : String → Option String}

/-- **Settings in front** are taken in before the rest is read. -/
lemma readAfter_append {front : List String} {settings : List (Flag × String)}
    (hfront : Spells front settings) (haccepts : ∀ s ∈ settings, s.1.Accepts s.2) (d : Draft)
    (rest : List String) :
    readAfter environment d (front ++ rest) =
      readAfter environment (settings.foldl Draft.settle d) rest := by
  induction hfront generalizing d with
  | nil => rfl
  | @cons f argument value front settings hname _ ih =>
    obtain ⟨hvalue, hsettings⟩ := List.forall_mem_cons.1 haccepts
    rw [List.cons_append, List.cons_append, readAfter, Flag.ofArgument?_eq_some_iff.2 hname]
    simp only [d.put_of_accepts hvalue]
    exact ih hsettings (d.settle (f, value))

lemma readAfter_bare {argument : String} (hnone : ∀ f : Flag, ¬f.Named argument)
    (hasks : ¬Asks argument) (d : Draft) (rest : List String) :
    readAfter environment d (argument :: rest) = .error (.unknownArgument argument) := by
  have hbare : readAfter.bare argument = .error (.unknownArgument argument) := by
    rw [readAfter.bare, if_neg fun h => hasks (.inl h), if_neg fun h => hasks (.inr h)]
  cases rest with
  | nil => rw [readAfter, Flag.ofArgument?_eq_none_iff.2 hnone, hbare]
  | cons value rest => rw [readAfter, Flag.ofArgument?_eq_none_iff.2 hnone, hbare]

/-- **Something wrong** is what the reading ends with. -/
lemma Offends.readAfter_eq {rest : List String} {e : UsageError} (h : Offends rest e)
    (hasks : ∀ argument ∈ flagPositions rest, ¬Asks argument) (d : Draft) :
    readAfter environment d rest = .error e := by
  cases h with
  | missingValue hname => rw [readAfter, Flag.ofArgument?_eq_some_iff.2 hname]
  | @refused f argument value rest e hname h =>
    rw [readAfter, Flag.ofArgument?_eq_some_iff.2 hname]
    simp only [d.put_of_refuses h]
    rfl
  | @unknown argument rest hnone =>
    refine readAfter_bare hnone (hasks argument ?_) d rest
    cases rest with
    | nil => exact List.mem_cons_self
    | cons value rest =>
      rw [flagPositions, Flag.ofArgument?_eq_none_iff.2 hnone]
      exact List.mem_cons_self

/-- **Every command line** begins with settings, and there it ends or something is wrong. -/
lemma exists_settings (arguments : List String) :
    ∃ front settings rest, arguments = front ++ rest ∧ Spells front settings ∧
      (∀ s ∈ settings, s.1.Accepts s.2) ∧ (rest = [] ∨ ∃ e, Offends rest e) := by
  have hhere (rest : List String) (h : rest = [] ∨ ∃ e, Offends rest e) :
      ∃ front settings rest', rest = front ++ rest' ∧ Spells front settings ∧
        (∀ s ∈ settings, s.1.Accepts s.2) ∧ (rest' = [] ∨ ∃ e, Offends rest' e) :=
    ⟨[], [], rest, rfl, .nil, nofun, h⟩
  match arguments with
  | [] => exact hhere [] (.inl rfl)
  | [argument] =>
    by_cases hname : ∃ f : Flag, f.Named argument
    · obtain ⟨f, hname⟩ := hname
      exact hhere [argument] (.inr ⟨_, .missingValue hname⟩)
    · exact hhere [argument] (.inr ⟨_, .unknown (not_exists.1 hname)⟩)
  | argument :: value :: rest =>
    by_cases hname : ∃ f : Flag, f.Named argument
    · obtain ⟨f, hname⟩ := hname
      rcases f.accepts_or_refuses value with hvalue | ⟨e, hvalue⟩
      · obtain ⟨front, settings, rest', rfl, hfront, haccepts, hrest⟩ := exists_settings rest
        exact ⟨argument :: value :: front, (f, value) :: settings, rest', rfl, .cons hname hfront,
          List.forall_mem_cons.2 ⟨hvalue, haccepts⟩, hrest⟩
      · exact hhere _ (.inr ⟨e, .refused hname hvalue⟩)
    · exact hhere _ (.inr ⟨_, .unknown (not_exists.1 hname)⟩)

lemma flagPositions_append {front : List String} {settings : List (Flag × String)}
    (hfront : Spells front settings) (haccepts : ∀ s ∈ settings, s.1.Accepts s.2)
    (rest : List String) :
    flagPositions (front ++ rest) = flagPositions front ++ flagPositions rest := by
  induction hfront with
  | nil => rfl
  | cons hname hrest ih =>
    obtain ⟨hvalue, hsettings⟩ := List.forall_mem_cons.1 haccepts
    simp only [List.cons_append, flagPositions, Flag.ofArgument?_eq_some_iff.2 hname, if_pos hvalue,
      ih hsettings]

/-! ## The whole line -/

/-- A command line of settings alone. -/
lemma read_of_spells {arguments : List String} {settings : List (Flag × String)}
    (h : Spells arguments settings) (haccepts : ∀ s ∈ settings, s.1.Accepts s.2) :
    read arguments environment =
      if (settled settings environment).user = "" then .error .emptyUser
      else .ok (.serve (settled settings environment)) := by
  have hread : readAfter environment .blank (arguments ++ []) =
      readAfter environment (settings.foldl Draft.settle .blank) [] :=
    readAfter_append h haccepts .blank []
  rw [List.append_nil] at hread
  rw [read, hread, readAfter, complete_foldl_settle]
  split_ifs <;> rfl

/-- A command line with something wrong in it. -/
lemma read_of_offends {front rest : List String} {settings : List (Flag × String)} {e : UsageError}
    (hfront : Spells front settings) (haccepts : ∀ s ∈ settings, s.1.Accepts s.2)
    (h : Offends rest e) (hasks : ∀ argument ∈ flagPositions (front ++ rest), ¬Asks argument) :
    read (front ++ rest) environment = .error e := by
  rw [read, readAfter_append hfront haccepts]
  refine h.readAfter_eq (fun argument hargument => hasks argument ?_) _
  rw [flagPositions_append hfront haccepts]
  exact List.mem_append_right _ hargument

/-- **The command line is read as documented**, where nobody asks for help or for the version.  It
is read if and only if it is a list of settings that can be taken in and leave the admin a name;
then it says what they come to.  Otherwise the error is that of the leftmost thing wrong with it,
and of the missing name if there is none.  Where a command line can be read, only the order of the
settings of the same flag counts, and not by which of its names a flag is called. -/
theorem read_settles_or_refuses (environment : String → Option String) {arguments : List String}
    (hasks : ∀ argument ∈ flagPositions arguments, ¬Asks argument) :
    (∀ c, read arguments environment = .ok c ↔
      ∃ settings, Spells arguments settings ∧ (∀ s ∈ settings, s.1.Accepts s.2) ∧
        (settled settings environment).user ≠ "" ∧ c = .serve (settled settings environment)) ∧
    (∀ e, read arguments environment = .error e ↔ Refused environment arguments e) ∧
    ∀ settings settings' arguments', Spells arguments settings → Spells arguments' settings' →
      (∀ f, values f settings = values f settings') →
      ∀ c, read arguments environment = .ok c → read arguments' environment = .ok c := by
  have hok (c : Command) : read arguments environment = .ok c ↔
      ∃ settings, Spells arguments settings ∧ (∀ s ∈ settings, s.1.Accepts s.2) ∧
        (settled settings environment).user ≠ "" ∧ c = .serve (settled settings environment) := by
    constructor
    · intro hread
      obtain ⟨front, settings, rest, rfl, hfront, haccepts, rfl | ⟨e, h⟩⟩ :=
        exists_settings arguments
      · rw [List.append_nil] at hread ⊢
        rw [read_of_spells hfront haccepts] at hread
        split_ifs at hread with huser
        exact ⟨settings, hfront, haccepts, huser, (Except.ok.inj hread).symm⟩
      · rw [read_of_offends hfront haccepts h hasks] at hread
        cases hread
    · rintro ⟨settings, h, haccepts, huser, rfl⟩
      rw [read_of_spells h haccepts, if_neg huser]
  refine ⟨hok, fun e => ⟨fun hread => ?_, fun hrefused => ?_⟩, ?_⟩
  · obtain ⟨front, settings, rest, rfl, hfront, haccepts, rfl | ⟨e', h⟩⟩ :=
      exists_settings arguments
    · rw [List.append_nil] at hread ⊢
      rw [read_of_spells hfront haccepts] at hread
      split_ifs at hread with huser
      obtain rfl := Except.error.inj hread
      exact .emptyUser hfront haccepts huser
    · rw [read_of_offends hfront haccepts h hasks] at hread
      obtain rfl := Except.error.inj hread
      exact .offends hfront haccepts h
  · cases hrefused with
    | offends hfront haccepts h => exact read_of_offends hfront haccepts h hasks
    | emptyUser h haccepts hempty => rw [read_of_spells h haccepts, if_pos hempty]
  · intro settings settings' arguments' h h' hvalues c hread
    obtain ⟨found, hfound, haccepts, huser, rfl⟩ := (hok c).1 hread
    obtain rfl := hfound.unique h
    have haccepts' : ∀ s ∈ settings', s.1.Accepts s.2 := by
      rintro ⟨f, value⟩ hmem
      rw [← mem_values_iff, ← hvalues, mem_values_iff] at hmem
      exact haccepts _ hmem
    rw [read_of_spells h' haccepts', ← settled_congr hvalues, if_neg huser]

/-- Values that look like flags, a port and a host given twice, and a password that is empty
although the environment has one; the same settings in another order and by other names; and a line
whose second setting is refused before its last argument is looked at. -/
theorem read_of_lookalike_values :
    let environment (name : String) : Option String :=
      if name = userVariable then some "keeper" else some "secret"
    let line :=
      ["-p", "+0", "--host", "--help", "--password", "", "-h", "--port", "--port", "+0065535"]
    let line' :=
      ["-h", "--help", "--port", "+0", "-p", "+0065535", "-h", "--port", "--password", ""]
    let wrong := ["-u", "", "-p", "+", "--help"]
    let options : Options := ⟨"--port", 65535, "keeper", some "", .never⟩
    ((∀ argument ∈ flagPositions line, ¬Asks argument) ∧
      ∀ argument ∈ flagPositions wrong, ¬Asks argument) ∧
    read line environment = .ok (.serve options) ∧ read line' environment = .ok (.serve options) ∧
    read wrong environment = .error (.invalidPort "+" .invalidDigit) := by
  intro environment line line' wrong options
  have hline : ∀ argument ∈ flagPositions line, ¬Asks argument := by decide
  have hwrong : ∀ argument ∈ flagPositions wrong, ¬Asks argument := by decide
  obtain ⟨hok, -, hreorder⟩ := read_settles_or_refuses environment hline
  obtain ⟨-, herror, -⟩ := read_settles_or_refuses environment hwrong
  let settings : List (Flag × String) :=
    [(.port, "+0"), (.host, "--help"), (.password, ""), (.host, "--port"), (.port, "+0065535")]
  let settings' : List (Flag × String) :=
    [(.host, "--help"), (.port, "+0"), (.port, "+0065535"), (.host, "--port"), (.password, "")]
  have hspells : Spells line settings :=
    .cons (.inr rfl) <| .cons (.inl rfl) <| .cons (.inl rfl) <| .cons (.inr rfl) <|
      .cons (.inl rfl) .nil
  have hspells' : Spells line' settings' :=
    .cons (.inr rfl) <| .cons (.inl rfl) <| .cons (.inr rfl) <| .cons (.inr rfl) <|
      .cons (.inl rfl) .nil
  have hread : read line environment = .ok (.serve options) :=
    (hok _).2 ⟨settings, hspells, by decide +kernel, by decide, by decide +kernel⟩
  have hvalues (f : Flag) : values f settings = values f settings' := by
    cases f <;> rfl
  have hname : Spells ["-u", ""] [(.user, "")] := .cons (.inr rfl) .nil
  have hport : Flag.Refuses .port "+" (.invalidPort "+" .invalidDigit) := .port (by decide)
  have hport' : Offends ["-p", "+", "--help"] (.invalidPort "+" .invalidDigit) :=
    .refused (.inr rfl) hport
  refine ⟨⟨hline, hwrong⟩, hread, ?_, ?_⟩
  · exact hreorder settings settings' line' hspells hspells' hvalues _ hread
  · exact (herror _).2 (.offends hname (by decide) hport')

end Command

end ExpiringStore
