import TripleTable.Settings.Load
set_option autoImplicit false

/-!
What the command line says against the environment. A setting that it gives is the same whatever the
variable holds, but the variable of the backend is read before the backend is replaced: a name that
is no backend ends the run in any case.
-/
namespace TripleTable

-- The variables whose settings the command line gives itself.
def Overrides.Supplies (o : Overrides) (name : String) : Prop :=
  name = "SPARQL2SQL_METADATA_BACKEND" ∧ o.backend ≠ none ∨
  name = "SPARQL2SQL_METADATA_FILE" ∧ o.metadataFile ≠ none ∨
  name = "CLICKHOUSE_URL" ∧ o.clickhouseUrl ≠ none

-- Two environments that differ at most in the given variables.
def Environment.AgreeBut (supplied : String → Prop) (env other : Environment) : Prop :=
  ∀ name, ¬ supplied name → env.find? name = other.find? name

namespace Settings

def backendName (env : Environment) : Text :=
  (env.find? "SPARQL2SQL_METADATA_BACKEND").getD "yaml"

-- What the variable of the backend holds where that names no backend.
def misnamedBackend? (env : Environment) : Option Text :=
  match Backend.ofText? (backendName env) with
  | none => some (backendName env)
  | some _ => none

def taken (env : Environment) (backend : Backend) : Settings :=
  let value (name : String) (default : Text) : Text := (env.find? name).getD default
  { backend
    metadataFile := some (value "SPARQL2SQL_METADATA_FILE" "metadata.yaml")
    clickhouseUrl := env.find? "CLICKHOUSE_URL"
    clickhouseUser := value "CLICKHOUSE_USER" "default"
    clickhousePassword := value "CLICKHOUSE_PASSWORD" ""
    clickhouseDatabase := value "CLICKHOUSE_DATABASE" "default"
    mappingTable := value "SPARQL2SQL_MAPPING_TABLE" "TBL_TRANSFORM"
    partitionTable := value "SPARQL2SQL_PARTITION_TABLE" "PARTITION_INFO" }

theorem command_line_misnamed (o : Overrides) {env : Environment} {name : Text}
    (misnamed : misnamedBackend? env = some name) :
    ofCommandLine o none env = .error (.unknownBackend "SPARQL2SQL_METADATA_BACKEND" name) := by
  unfold misnamedBackend? at misnamed
  cases found : Backend.ofText? (backendName env) with
  | none =>
    rw [found] at misnamed
    obtain rfl := Option.some.inj misnamed
    unfold backendName at found
    simp only [ofCommandLine, readEnvironment, found]
    rfl
  | some backend =>
    rw [found] at misnamed
    cases misnamed

theorem command_line_named (o : Overrides) {env : Environment}
    (named : misnamedBackend? env = none) :
    ∃ backend, Backend.ofText? (backendName env) = some backend ∧
      ofCommandLine o none env = ((taken env backend).override o).validate := by
  unfold misnamedBackend? at named
  cases found : Backend.ofText? (backendName env) with
  | none =>
    rw [found] at named
    cases named
  | some backend =>
    refine ⟨backend, rfl, ?_⟩
    unfold backendName at found
    simp only [ofCommandLine, readEnvironment, found]
    rfl

theorem validate_known (s : Settings) (variableName name : Text) :
    s.validate ≠ .error (.unknownBackend variableName name) := by
  unfold validate
  split
  · simp
  · simp

section
variable {o : Overrides} {env other : Environment}

theorem backend_agrees (agree : env.AgreeBut o.Supplies other) (free : o.backend = none) :
    backendName env = backendName other := by
  have same := agree "SPARQL2SQL_METADATA_BACKEND" (by simp [Overrides.Supplies, free])
  unfold backendName
  rw [same]

theorem taken_agrees (agree : env.AgreeBut o.Supplies other) {backend backend' : Backend}
    (same : o.backend = none → backend = backend') :
    (taken env backend).override o = (taken other backend').override o := by
  have chosen : o.backend.getD backend = o.backend.getD backend' := by
    cases given : o.backend with
    | none => exact same given
    | some b => rfl
  have file : (o.metadataFile <|> (taken env backend).metadataFile) =
      (o.metadataFile <|> (taken other backend').metadataFile) := by
    cases given : o.metadataFile with
    | none =>
      have same := agree "SPARQL2SQL_METADATA_FILE" (by simp [Overrides.Supplies, given])
      simp only [taken, same]
    | some path => rfl
  have url : (o.clickhouseUrl <|> (taken env backend).clickhouseUrl) =
      (o.clickhouseUrl <|> (taken other backend').clickhouseUrl) := by
    cases given : o.clickhouseUrl with
    | none =>
      have same := agree "CLICKHOUSE_URL" (by simp [Overrides.Supplies, given])
      simp only [taken, same]
    | some url => rfl
  have user := agree "CLICKHOUSE_USER" (by simp [Overrides.Supplies])
  have password := agree "CLICKHOUSE_PASSWORD" (by simp [Overrides.Supplies])
  have database := agree "CLICKHOUSE_DATABASE" (by simp [Overrides.Supplies])
  have mapping := agree "SPARQL2SQL_MAPPING_TABLE" (by simp [Overrides.Supplies])
  have partition := agree "SPARQL2SQL_PARTITION_TABLE" (by simp [Overrides.Supplies])
  unfold override
  rw [file, url]
  simp only [taken, chosen, user, password, database, mapping, partition]

-- The one thing that a supplied variable can still decide is whether its backend is known.
theorem command_line_decides (o : Overrides) (env other : Environment)
    (agree : env.AgreeBut o.Supplies other) :
    (ofCommandLine o none env = ofCommandLine o none other ↔
      misnamedBackend? env = misnamedBackend? other) ∧
    (o.backend = none → ofCommandLine o none env = ofCommandLine o none other) := by
  have decided : ofCommandLine o none env = ofCommandLine o none other ↔
      misnamedBackend? env = misnamedBackend? other := by
    cases here : misnamedBackend? env with
    | some name =>
      rw [command_line_misnamed o here]
      cases there : misnamedBackend? other with
      | some name' => simp [command_line_misnamed o there]
      | none =>
        obtain ⟨backend, -, run⟩ := command_line_named o there
        rw [run]
        simpa using Ne.symm (validate_known _ _ name)
    | none =>
      obtain ⟨backend, found, run⟩ := command_line_named o here
      cases there : misnamedBackend? other with
      | some name =>
        rw [run, command_line_misnamed o there]
        simpa using validate_known _ _ name
      | none =>
        obtain ⟨backend', found', run'⟩ := command_line_named o there
        have same : o.backend = none → backend = backend' := by
          intro free
          rw [backend_agrees agree free, found'] at found
          exact (Option.some.inj found).symm
        rw [run, run', taken_agrees agree same]
        simp
  refine ⟨decided, fun free => decided.mpr ?_⟩
  unfold misnamedBackend?
  rw [backend_agrees agree free]

end

-- A URL on the command line that is blank is refused, though the environment has a good one.
def blankUrl : Overrides := { backend := some .clickhouse, clickhouseUrl := some " " }

def goodUrl : Environment :=
  [("CLICKHOUSE_URL".toList, "http://c".toList), ("SPARQL2SQL_METADATA_BACKEND".toList, " YAML ".toList)]

theorem blank_url_refused :
    goodUrl.AgreeBut blankUrl.Supplies [] ∧
      ofCommandLine blankUrl none goodUrl = ofCommandLine blankUrl none [] ∧
      ofCommandLine blankUrl none [] = .error (.invalid [⟨"__all__", "clickhouse_url_required",
        "The clickhouse backend needs a ClickHouse URL"⟩]) := by
  have agree : goodUrl.AgreeBut blankUrl.Supplies [] := by
    intro name free
    simp only [Overrides.Supplies, blankUrl, not_or, not_and, Classical.not_not] at free
    have url : "CLICKHOUSE_URL" ≠ name := fun same => absurd (free.2.2 same.symm) (by simp)
    have backend : "SPARQL2SQL_METADATA_BACKEND" ≠ name := fun same =>
      absurd (free.1 same.symm) (by simp)
    simp only [goodUrl, NameTable.find?, List.find?, String.toList_inj, url, backend, decide_false]
  have decided := (command_line_decides blankUrl goodUrl [] agree).1
  exact ⟨agree, decided.mpr (by decide +kernel), rfl⟩

def yamlGiven : Overrides := { backend := some .yaml }

def misnamed : Environment := [("SPARQL2SQL_METADATA_BACKEND".toList, "oracle".toList)]

-- The backend is given, and yet the variable that names none ends the run.
theorem misnamed_backend_refused :
    misnamed.AgreeBut yamlGiven.Supplies [] ∧
      ofCommandLine yamlGiven none misnamed =
        .error (.unknownBackend "SPARQL2SQL_METADATA_BACKEND" "oracle") ∧
      ofCommandLine yamlGiven none [] = .ok {} := by
  refine ⟨fun name free => ?_, rfl, rfl⟩
  simp only [Overrides.Supplies, yamlGiven, not_or, not_and, Classical.not_not] at free
  have backend : "SPARQL2SQL_METADATA_BACKEND" ≠ name := fun same =>
    absurd (free.1 same.symm) (by simp)
  simp only [misnamed, NameTable.find?, List.find?, String.toList_inj, backend, decide_false]

end Settings
end TripleTable
