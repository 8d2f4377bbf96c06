import DepotClient.Proofs.Session.Attempts

/-! # Configurations from variables

Six variables describe a configuration. They are read in a fixed order: the first must be present,
the others may be missing, and none may hold bytes that are not text. The first variable
with a fault decides how reading fails; only if there is none is the address looked at.

* **`Profile.ofVariables_eq`** — reading in closed form: the first failure, or else the refusal of a
  blank address, or else the configuration that the values describe;
* **`Profile.ofVariables_exact`** — what this means for all environments. -/

namespace DepotClient.Profile

/-! ## Faults and values -/

/-- The variables that may be missing, in the order in which they are read. -/
def optionalNames : List String := ["P4USER", "P4PASSWD", "P4CLIENT", "P4TRUST_FLAG", "P4FINGERPRINT"]

/-- The six variables, in the order in which they are read. -/
def variableNames : List String := "P4PORT" :: optionalNames

/-- What is wrong with a variable: it is missing although it must be present, or it is not text. -/
def fault? (env : Environment) (name : String) : Option VariableFault :=
  match env name with
  | .ok _ => none
  | .error .notPresent => if name = "P4PORT" then some .notPresent else none
  | .error (.notUnicode bytes) => some (.notUnicode bytes)

/-- The failure that the fault of a variable leads to. -/
def failure? (env : Environment) (name : String) : Option Failure :=
  (fault? env name).map (.unreadableVariable name)

/-- The text of a variable, empty if it has none. -/
def value (env : Environment) (name : String) : String :=
  match env name with
  | .ok text => text
  | .error _ => ""

/-- The configuration that the values of the variables describe. -/
def ofValues (env : Environment) : Profile :=
  withTrust
    { address := value env "P4PORT"
      user := value env "P4USER"
      password := value env "P4PASSWD"
      client := value env "P4CLIENT" }
    ⟨value env "P4TRUST_FLAG", value env "P4FINGERPRINT"⟩

variable {env : Environment} {name : String}

theorem fault?_eq_none_iff_of_optional (h : name ≠ "P4PORT") :
    fault? env name = none ↔ ∀ bytes, env name ≠ .error (.notUnicode bytes) := by
  unfold fault?
  cases env name with
  | ok text => simp
  | error cause => cases cause <;> simp [h]

theorem fault?_address_eq_none_iff :
    fault? env "P4PORT" = none ↔ ∃ address, env "P4PORT" = .ok address := by
  unfold fault?
  cases env "P4PORT" with
  | ok text => simp
  | error cause => cases cause <;> simp

/-! ## Reading in closed form -/

/-- Reading goes on with the value of the address if it is without fault. -/
theorem required_bind {α : Type} (next : String → Except Failure α) :
    (required env "P4PORT" >>= next) =
      (failure? env "P4PORT").elim (next (value env "P4PORT")) .error := by
  unfold required failure? fault? value
  cases env "P4PORT" with
  | ok text => rfl
  | error cause => cases cause <;> rfl

/-- Reading goes on with the value of any other variable if it is without fault. -/
theorem optional_bind (h : name ≠ "P4PORT") {α : Type} (next : String → Except Failure α) :
    (optional env name >>= next) = (failure? env name).elim (next (value env name)) .error := by
  unfold optional failure? fault? value
  cases env name with
  | ok text => rfl
  | error cause =>
    cases cause with
    | notPresent => rw [if_neg h]; rfl
    | notUnicode bytes => rfl

/-- The first failure is that of the first variable, or else that of the others. -/
theorem elim_findSome?_cons {α : Type} (names : List String) (r : Except Failure α) :
    ((name :: names).findSome? (failure? env)).elim r .error =
      (failure? env name).elim ((names.findSome? (failure? env)).elim r .error) .error := by
  rw [List.findSome?_cons]
  cases failure? env name <;> rfl

/-- **Reading in closed form.** The first variable with a fault decides, then the address. -/
theorem ofVariables_eq (env : Environment) :
    ofVariables env = (variableNames.findSome? (failure? env)).elim
      ((ofValues env).check.map fun _ => ofValues env) .error := by
  have hcheck : ((ofValues env).check >>= fun _ => pure (ofValues env)) =
      (ofValues env).check.map fun _ => ofValues env := by
    cases (ofValues env).check <;> rfl
  rw [ofVariables, required_bind, optional_bind (by decide), optional_bind (by decide),
    optional_bind (by decide), optional_bind (by decide), optional_bind (by decide)]
  simp only [variableNames, optionalNames, elim_findSome?_cons, List.findSome?_nil, Option.elim_none]
  rw [← hcheck]
  rfl

/-! ## When reading fails -/

/-- Holds if the variable has a fault, and none of the variables that are read before it has one. -/
def IsFirstFault (env : Environment) (name : String) (cause : VariableFault) : Prop :=
  fault? env name = some cause ∧
    ∃ before after, variableNames = before ++ name :: after ∧ ∀ other ∈ before, fault? env other = none

theorem findSome?_failure?_eq_none_iff :
    variableNames.findSome? (failure? env) = none ↔
      ∀ name ∈ variableNames, fault? env name = none := by
  rw [List.findSome?_eq_none_iff]
  exact forall₂_congr fun name _ => Option.map_eq_none_iff

theorem findSome?_failure?_eq_some_iff {e : Failure} :
    variableNames.findSome? (failure? env) = some e ↔
      ∃ name cause, IsFirstFault env name cause ∧ e = .unreadableVariable name cause := by
  rw [List.findSome?_eq_some_iff]
  constructor
  · rintro ⟨before, name, after, hnames, hname, hbefore⟩
    obtain ⟨cause, hcause, rfl⟩ := Option.map_eq_some_iff.mp hname
    have hnone : ∀ other ∈ before, fault? env other = none := fun other hother =>
      Option.map_eq_none_iff.mp (hbefore other hother)
    exact ⟨name, cause, ⟨hcause, before, after, hnames, hnone⟩, rfl⟩
  · rintro ⟨name, cause, ⟨hcause, before, after, hnames, hbefore⟩, rfl⟩
    exact ⟨before, name, after, hnames, Option.map_eq_some_iff.mpr ⟨cause, hcause, rfl⟩,
      fun other hother => Option.map_eq_none_iff.mpr (hbefore other hother)⟩

/-- The values name an address, or else the configuration is refused. -/
theorem check_ofValues (env : Environment) :
    (ofValues env).check =
      if Text.trim (value env "P4PORT").toList = [] then .error .noAddress else .ok () := by
  have hdirectory : (ofValues env).directory = none := rfl
  rw [check, hdirectory]
  simp only [and_true]
  rfl

/-- **Reading succeeds** if no variable has a fault and the address is not blank. -/
theorem ofVariables_eq_ok_iff {c : Profile} :
    ofVariables env = .ok c ↔
      (∀ name ∈ variableNames, fault? env name = none) ∧
        Text.trim (value env "P4PORT").toList ≠ [] ∧ c = ofValues env := by
  rw [ofVariables_eq, check_ofValues, ← findSome?_failure?_eq_none_iff]
  cases variableNames.findSome? (failure? env) with
  | some e => simp
  | none =>
    by_cases hblank : Text.trim (value env "P4PORT").toList = []
    · simp [hblank, Except.map]
    · simp [hblank, Except.map, eq_comm]

/-- **Reading fails** at the first variable with a fault, or else at a blank address. -/
theorem ofVariables_eq_error_iff {e : Failure} :
    ofVariables env = .error e ↔
      (∃ name cause, IsFirstFault env name cause ∧ e = .unreadableVariable name cause) ∨
      ((∀ name ∈ variableNames, fault? env name = none) ∧
        Text.trim (value env "P4PORT").toList = [] ∧ e = .noAddress) := by
  rw [ofVariables_eq, check_ofValues, ← findSome?_failure?_eq_none_iff,
    ← findSome?_failure?_eq_some_iff]
  cases variableNames.findSome? (failure? env) with
  | some e' => simp
  | none =>
    by_cases hblank : Text.trim (value env "P4PORT").toList = []
    · simp [hblank, Except.map, eq_comm]
    · simp [hblank, Except.map]

/-- **No variable has a fault** if the first is present and none of the others holds bytes that are
not text. -/
theorem fault?_eq_none_iff :
    (∀ name ∈ variableNames, fault? env name = none) ↔
      (∃ address, env "P4PORT" = .ok address) ∧
        ∀ name ∈ optionalNames, ∀ bytes, env name ≠ .error (.notUnicode bytes) := by
  have hoptional : ∀ name ∈ optionalNames, name ≠ "P4PORT" := by decide
  rw [variableNames, List.forall_mem_cons, fault?_address_eq_none_iff]
  exact and_congr_right' (forall₂_congr fun name hname =>
    fault?_eq_none_iff_of_optional (hoptional name hname))

/-! ## What is read -/

/-- **Only the six variables have an influence.** -/
theorem ofVariables_congr {env' : Environment} (h : ∀ name ∈ variableNames, env' name = env name) :
    ofVariables env' = ofVariables env := by
  have hfailure : ∀ name ∈ variableNames, failure? env' name = failure? env name := by
    intro name hname
    rw [failure?, fault?, h name hname, failure?, fault?]
  have hvalue : ∀ name ∈ variableNames, value env' name = value env name := by
    intro name hname
    rw [value, h name hname, value]
  have hfirst : variableNames.findSome? (failure? env') = variableNames.findSome? (failure? env) := by
    rw [← List.head?_filterMap, List.filterMap_congr hfailure, List.head?_filterMap]
  have hvalues : ofValues env' = ofValues env := by
    rw [ofValues, hvalue "P4PORT" (by decide), hvalue "P4USER" (by decide),
      hvalue "P4PASSWD" (by decide), hvalue "P4CLIENT" (by decide),
      hvalue "P4TRUST_FLAG" (by decide), hvalue "P4FINGERPRINT" (by decide), ofValues]
  rw [ofVariables_eq, ofVariables_eq, hfirst, hvalues]

/-- A configuration says what the variables say, and connections can be made from it. -/
structure IsReadFrom (env : Environment) (c : Profile) : Prop where
  /-- The address is that of the variables. -/
  address_eq : c.address = value env "P4PORT"
  /-- So is the name of the user. -/
  user_eq : c.user = value env "P4USER"
  /-- So is the password. -/
  password_eq : c.password = value env "P4PASSWD"
  /-- So is the workspace. -/
  client_eq : c.client = value env "P4CLIENT"
  /-- There is no working directory. -/
  directory_eq : c.directory = none
  /-- There are trust settings just if a flag or a fingerprint is given, and then both are those of
  the variables. -/
  trust_eq_some_iff : ∀ t, c.trust = some t ↔
    (value env "P4TRUST_FLAG" ≠ "" ∨ value env "P4FINGERPRINT" ≠ "") ∧
      t = ⟨value env "P4TRUST_FLAG", value env "P4FINGERPRINT"⟩
  /-- Trust settings that are there give something. -/
  effectiveTrust?_eq : c.effectiveTrust? = c.trust
  /-- A pool can be made with the configuration. -/
  new_eq : Pool.new c = .ok { profile := c }

theorem trust_withTrust (c : Profile) (t : Trust) :
    (c.withTrust t).trust = if t.flag = "" ∧ t.fingerprint = "" then none else some t := by
  by_cases h : t.flag = "" ∧ t.fingerprint = "" <;> simp [withTrust, Trust.isEmpty, h]

/-- The configuration that the values describe is read from the variables. -/
theorem isReadFrom_ofValues (h : Text.trim (value env "P4PORT").toList ≠ []) :
    IsReadFrom env (ofValues env) where
  address_eq := rfl
  user_eq := rfl
  password_eq := rfl
  client_eq := rfl
  directory_eq := rfl
  trust_eq_some_iff t := by
    rw [ofValues, trust_withTrust]
    by_cases hempty : value env "P4TRUST_FLAG" = "" ∧ value env "P4FINGERPRINT" = ""
    · simp [hempty]
    · have hgiven : value env "P4TRUST_FLAG" ≠ "" ∨ value env "P4FINGERPRINT" ≠ "" :=
        Decidable.not_and_iff_or_not.mp hempty
      rw [if_neg hempty, Option.some_inj, eq_comm]
      exact (and_iff_right hgiven).symm
  effectiveTrust?_eq := by rw [ofValues, effectiveTrust?_withTrust, trust_withTrust]
  new_eq := by
    rw [Pool.new, check_ofValues, if_neg h]
    rfl

/-- **Configurations are read from variables exactly.** No other variable has an influence. Reading
succeeds just if there is an address that is not blank and none of the other variables holds bytes
that are not text; otherwise it fails at the first variable with a fault, or at the blank address if
there is none. And what is read says what the variables say, with an empty text for each one that is
missing. -/
theorem ofVariables_exact (env : Environment) :
    (∀ env' : Environment, (∀ name ∈ variableNames, env' name = env name) →
      ofVariables env' = ofVariables env) ∧
    ((∃ c, ofVariables env = .ok c) ↔
      (∃ address, env "P4PORT" = .ok address ∧ Text.trim address.toList ≠ []) ∧
        ∀ name ∈ optionalNames, ∀ bytes, env name ≠ .error (.notUnicode bytes)) ∧
    (∀ e, ofVariables env = .error e ↔
      (∃ name cause, IsFirstFault env name cause ∧ e = .unreadableVariable name cause) ∨
        ((∀ name ∈ variableNames, fault? env name = none) ∧
          Text.trim (value env "P4PORT").toList = [] ∧ e = .noAddress)) ∧
    ∀ c, ofVariables env = .ok c → IsReadFrom env c := by
  refine ⟨fun env' h => ofVariables_congr h, ?_, fun e => ofVariables_eq_error_iff, ?_⟩
  · constructor
    · rintro ⟨c, h⟩
      obtain ⟨hfault, haddress, -⟩ := ofVariables_eq_ok_iff.mp h
      obtain ⟨⟨address, hpresent⟩, hoptional⟩ := fault?_eq_none_iff.mp hfault
      rw [value, hpresent] at haddress
      exact ⟨⟨address, hpresent, haddress⟩, hoptional⟩
    · rintro ⟨⟨address, hpresent, haddress⟩, hoptional⟩
      refine ⟨ofValues env, ofVariables_eq_ok_iff.mpr ⟨?_, ?_, rfl⟩⟩
      · exact fault?_eq_none_iff.mpr ⟨⟨address, hpresent⟩, hoptional⟩
      · rwa [value, hpresent]
  · intro c h
    obtain ⟨-, haddress, rfl⟩ := ofVariables_eq_ok_iff.mp h
    exact isReadFrom_ofValues haddress

/-- Three things are wrong at once, and the first variable that is not text decides; another variable
that is not text does not matter. With all three mended there is a configuration. -/
theorem ofVariables_of_three_faults :
    let faulty : Environment := fun name =>
      if name = "P4PORT" then .ok " \u3000" else
      if name = "P4CLIENT" then .error (.notUnicode [255]) else
      if name = "P4FINGERPRINT" then .error (.notUnicode [254]) else .error .notPresent
    let other : Environment := fun name =>
      if name = "HOME" then .error (.notUnicode [253]) else faulty name
    let mended : Environment := fun name =>
      if name = "P4PORT" then .ok "ssl:perforce:1666" else
      if name = "P4FINGERPRINT" then .ok "AB:CD" else .error .notPresent
    ((∀ name ∈ variableNames, other name = faulty name) ∧ ofVariables other = ofVariables faulty) ∧
      ofVariables faulty = .error (.unreadableVariable "P4CLIENT" (.notUnicode [255])) ∧
      ∃ c, ofVariables mended = .ok c ∧ c.user = "" ∧ c.effectiveTrust? = some ⟨"", "AB:CD"⟩ ∧
        Pool.new c = .ok { profile := c } := by
  intro faulty other mended
  have hagree : ∀ name ∈ variableNames, other name = faulty name := by
    decide
  obtain ⟨hother, -, herror, -⟩ := ofVariables_exact faulty
  obtain ⟨-, hsuccess, -, hread⟩ := ofVariables_exact mended
  have hfirst : IsFirstFault faulty "P4CLIENT" (.notUnicode [255]) :=
    ⟨rfl, ["P4PORT", "P4USER", "P4PASSWD"], _, rfl, by decide⟩
  obtain ⟨c, hc⟩ := hsuccess.mpr ⟨⟨"ssl:perforce:1666", rfl, by decide⟩,
    by simp [optionalNames, mended]⟩
  have htrust : c.trust = some ⟨"", "AB:CD"⟩ :=
    ((hread c hc).trust_eq_some_iff _).mpr ⟨.inr (by decide), rfl⟩
  exact ⟨⟨hagree, hother other hagree⟩, (herror _).mpr (.inl ⟨_, _, hfirst, rfl⟩), c, hc,
    (hread c hc).user_eq, (hread c hc).effectiveTrust?_eq.trans htrust, (hread c hc).new_eq⟩

end DepotClient.Profile
