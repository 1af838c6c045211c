/-
What the service makes of its environment.

A variable holds a text if it is set to the UTF-8 bytes of one, and is damaged if it is set to any other bytes. What the
service makes of every environment is told from the texts alone (`Yields`, `ofEnvironment_yields`): a damaged value
counts as none. Of a service that notices every value (`Heeds`) more is asked: it is to take a default, or to miss the
address of the database, only where a variable is unset, and to name the first number that is set wrong. That is what it
does unless the address is damaged, or there is one and the first wrong number is damaged (`values_heeded_iff`).
-/
import PickupPoint.Config
import PickupPoint.Proofs.Digits
import PickupPoint.Proofs.Spelling

namespace PickupPoint

open Text

/-! ## Variables -/

namespace Environment

variable {env : Environment} {key text text' : String}

/-- the variable is set to this text -/
def Holds (env : Environment) (key text : String) : Prop := env key = some (utf8 text)

/-- the variable is set, but to no text -/
def Damaged (env : Environment) (key : String) : Prop := ∃ bytes, env key = some bytes ∧ ∀ text, bytes ≠ utf8 text

theorem text?_eq_some_iff : Config.text? env key = some text ↔ env.Holds key text := by
  simp [Config.text?, Holds, Option.bind_eq_some_iff, intact?_decode_iff]

theorem text?_eq_none_iff : Config.text? env key = none ↔ ∀ text, ¬ env.Holds key text := by
  simp [Option.eq_none_iff_forall_ne_some, text?_eq_some_iff]

theorem Holds.unique (h : env.Holds key text) (h' : env.Holds key text') : text = text' := by
  apply Option.some.inj
  rw [← text?_eq_some_iff.2 h, text?_eq_some_iff.2 h']

theorem Holds.set (h : env.Holds key text) : env key ≠ none := by
  rw [h]
  exact Option.some_ne_none _

theorem Holds.not_damaged (h : env.Holds key text) : ¬ env.Damaged key := by
  rintro ⟨bytes, set, odd⟩
  exact odd text (Option.some.inj (set.symm.trans h))

/-- What holds no text is unset or damaged. -/
theorem unset_or_damaged (h : ∀ text, ¬ env.Holds key text) : env key = none ∨ env.Damaged key := by
  cases set : env key with
  | none => exact .inl rfl
  | some bytes => exact .inr ⟨bytes, set, fun text same => h text (set.trans (congrArg some same))⟩

end Environment

/-! ## The first of many -/

section First

variable {α : Type} {p q : α → Prop} {l : List α} {a b : α}

/-- the first of a list of which `p` is so -/
inductive First (p : α → Prop) : List α → α → Prop where
  | here {a : α} {rest : List α} (h : p a) : First p (a :: rest) a
  | later {a b : α} {rest : List α} (not : ¬ p b) (h : First p rest a) : First p (b :: rest) a

theorem First.holds (h : First p l a) : p a := by
  induction h with
  | here h => exact h
  | later _ _ ih => exact ih

theorem First.mem (h : First p l a) : a ∈ l := by
  induction h with
  | here => exact List.mem_cons_self
  | later _ _ ih => exact List.mem_cons_of_mem _ ih

theorem First.unique (h : First p l a) (h' : First p l b) : a = b := by
  induction h with
  | here h =>
    cases h' with
    | here => rfl
    | later not => exact absurd h not
  | later not _ ih =>
    cases h' with
    | here h => exact absurd h not
    | later _ h => exact ih h

/-- What is first of many is first of fewer that it is among. -/
theorem First.among (h : First p l a) (fewer : ∀ b, q b → p b) (one : q a) : First q l a := by
  induction h with
  | here => exact .here one
  | later not _ ih => exact .later (fun h => not (fewer _ h)) (ih one)

theorem exists_first (hb : b ∈ l) (h : p b) : ∃ a, First p l a := by
  induction l with
  | nil => cases hb
  | cons c l ih =>
    by_cases hc : p c
    · exact ⟨c, .here hc⟩
    · rcases List.mem_cons.1 hb with rfl | hb
      · exact absurd h hc
      · obtain ⟨a, first⟩ := ih hb
        exact ⟨a, .later hc first⟩

end First

/-! ## Numbers -/

/-- a number that a variable sets, and where the configuration keeps it -/
structure Setting where
  key : String
  limit : Nat
  fallback : Nat
  kept : Config → Nat

namespace Setting

variable {env : Environment} {s t : Setting} {n : Nat}

def port : Setting := ⟨"PORT", 2 ^ 16 - 1, 8080, Config.port⟩

def cacheTtl : Setting := ⟨"CACHE_TTL_SECS", 2 ^ 64 - 1, 300, Config.cacheTtl⟩

def dbPoolSize : Setting := ⟨"DB_POOL_SIZE", 2 ^ 32 - 1, 10, Config.dbPoolSize⟩

/-- the numbers of the configuration, in the order in which they are looked at -/
def all : List Setting := [port, cacheTtl, dbPoolSize]

/-- the variable holds `n`, which is within the range, in decimal digits -/
def Gives (s : Setting) (env : Environment) (n : Nat) : Prop :=
  n ≤ s.limit ∧ ∃ text, env.Holds s.key text ∧ Denotes text n

/-- the variable is set, but to no number of the range -/
def Wrong (env : Environment) (s : Setting) : Prop := env s.key ≠ none ∧ ∀ n, ¬ s.Gives env n

/-- the variable holds a text that is no number of the range -/
def Misread (env : Environment) (s : Setting) : Prop := (∃ text, env.Holds s.key text) ∧ ∀ n, ¬ s.Gives env n

theorem Misread.wrong (h : s.Misread env) : s.Wrong env := by
  obtain ⟨⟨text, holds⟩, none⟩ := h
  exact ⟨holds.set, none⟩

theorem Wrong.misread (h : s.Wrong env) (sound : ¬ env.Damaged s.key) : s.Misread env := by
  refine ⟨?_, h.2⟩
  by_contra none
  rcases Environment.unset_or_damaged (not_exists.1 none) with unset | damaged
  · exact h.1 unset
  · exact sound damaged

theorem wrong_of_damaged (h : env.Damaged s.key) : s.Wrong env := by
  refine ⟨?_, ?_⟩
  · obtain ⟨bytes, set, -⟩ := h
    rw [set]
    exact Option.some_ne_none bytes
  · rintro n ⟨-, text, holds, -⟩
    exact holds.not_damaged h

/-- what the service reads -/
def read (s : Setting) (env : Environment) : Except ConfigError Nat := Config.number env s.key s.limit s.fallback

theorem read_of_holds {text : String} (h : env.Holds s.key text) :
    s.read env = (readNat s.limit text).mapError (.invalid s.key) := by
  rw [read, Config.number, Environment.text?_eq_some_iff.2 h]

theorem read_of_not_holds (h : ∀ text, ¬ env.Holds s.key text) : s.read env = .ok s.fallback := by
  rw [read, Config.number, Environment.text?_eq_none_iff.2 h]

/-- A number that is read is the one that the variable gives, or the default where it holds no text. -/
theorem read_ok_iff :
    s.read env = .ok n ↔ s.Gives env n ∨ (∀ text, ¬ env.Holds s.key text) ∧ n = s.fallback := by
  by_cases holds : ∃ text, env.Holds s.key text
  · obtain ⟨text, holds⟩ := holds
    have read : s.read env = .ok n ↔ readNat s.limit text = .ok n := by
      rw [read_of_holds holds]
      cases readNat s.limit text <;> simp [Except.mapError]
    rw [read, readNat_eq_ok_iff]
    constructor
    · rintro ⟨fits, denotes⟩
      exact .inl ⟨fits, text, holds, denotes⟩
    · rintro (⟨fits, text', holds', denotes⟩ | ⟨bare, -⟩)
      · obtain rfl := holds.unique holds'
        exact ⟨fits, denotes⟩
      · exact absurd holds (bare text)
  · have bare := not_exists.1 holds
    rw [read_of_not_holds bare]
    constructor
    · rintro ⟨⟩
      exact .inr ⟨bare, rfl⟩
    · rintro (⟨-, text, holds, -⟩ | ⟨-, rfl⟩)
      · exact absurd holds (bare text)
      · rfl

/-- A number is refused if and only if its text is none of the range, and for what is wrong with that text. -/
theorem read_error_iff {e : ConfigError} :
    s.read env = .error e ↔ ∃ text reason, env.Holds s.key text ∧ readNat s.limit text = .error reason ∧
      e = .invalid s.key reason := by
  constructor
  · intro refused
    by_cases holds : ∃ text, env.Holds s.key text
    · obtain ⟨text, holds⟩ := holds
      rw [read_of_holds holds] at refused
      cases read : readNat s.limit text with
      | ok m =>
        rw [read] at refused
        cases refused
      | error reason =>
        rw [read] at refused
        exact ⟨text, reason, holds, read, (Except.error.inj refused).symm⟩
    · rw [read_of_not_holds (not_exists.1 holds)] at refused
      cases refused
  · rintro ⟨text, reason, holds, read, rfl⟩
    rw [read_of_holds holds, read]
    rfl

theorem misread_iff : s.Misread env ↔ ∃ e, s.read env = .error e := by
  constructor
  · rintro ⟨⟨text, holds⟩, none⟩
    cases h : s.read env with
    | error e => exact ⟨e, rfl⟩
    | ok n =>
      rcases read_ok_iff.1 h with given | ⟨bare, -⟩
      · exact absurd given (none n)
      · exact absurd holds (bare text)
  · rintro ⟨e, refused⟩
    obtain ⟨text, reason, holds, -, -⟩ := read_error_iff.1 refused
    refine ⟨⟨text, holds⟩, fun n given => ?_⟩
    rw [read_ok_iff.2 (.inl given)] at refused
    cases refused

theorem not_misread_iff : ¬ s.Misread env ↔ ∃ n, s.read env = .ok n := by
  rw [misread_iff]
  cases s.read env <;> simp

end Setting

/-! ## Outcomes -/

open Setting

variable {env : Environment}

/-- Every value of the configuration is taken from the text that its variable holds, or is the default where it holds
none. An address of a cache server that is empty is none. -/
structure Config.TakenFrom (env : Environment) (cfg : Config) : Prop where
  address : env.Holds "DATABASE_URL" cfg.databaseUrl
  host : env.Holds "HOST" cfg.host ∨ (∀ text, ¬ env.Holds "HOST" text) ∧ cfg.host = "0.0.0.0"
  redis : ∀ url, cfg.redisUrl = some url ↔ env.Holds "REDIS_URL" url ∧ url ≠ ""
  numbers : ∀ s ∈ all, s.Gives env (s.kept cfg) ∨ (∀ text, ¬ env.Holds s.key text) ∧ s.kept cfg = s.fallback

/-- What comes of an environment, by the texts in it: without an address it is missing; with one the first text that
should be a number and is none of the range is refused, or else all values are read. -/
inductive Yields (env : Environment) : Except ConfigError Config → Prop where
  | missing (none : ∀ url, ¬ env.Holds "DATABASE_URL" url) : Yields env (.error (.missing "DATABASE_URL"))
  | invalid {url text : String} {s : Setting} {reason : IntegerFault} (address : env.Holds "DATABASE_URL" url)
    (first : First (Misread env) all s) (holds : env.Holds s.key text) (why : readNat s.limit text = .error reason) :
    Yields env (.error (.invalid s.key reason))
  | accepted {cfg : Config} (taken : cfg.TakenFrom env) : Yields env (.ok cfg)

theorem ofEnvironment_missing (none : ∀ url, ¬ env.Holds "DATABASE_URL" url) :
    Config.ofEnvironment env = .error (.missing "DATABASE_URL") := by
  rw [Config.ofEnvironment, Environment.text?_eq_none_iff.2 none]
  rfl

theorem ofEnvironment_run {url : String} (address : env.Holds "DATABASE_URL" url) :
    Config.ofEnvironment env = (port.read env).bind fun p => (cacheTtl.read env).bind fun c =>
      (dbPoolSize.read env).bind fun d => .ok ⟨url, (Config.text? env "HOST").getD "0.0.0.0", p,
        (Config.text? env "REDIS_URL").filter (· ≠ ""), c, d⟩ := by
  rw [Config.ofEnvironment, Environment.text?_eq_some_iff.2 address]
  rfl

theorem ofEnvironment_refused {url : String} {s : Setting} {e : ConfigError} (address : env.Holds "DATABASE_URL" url)
    (first : First (Misread env) all s) (refused : s.read env = .error e) : Config.ofEnvironment env = .error e := by
  rw [ofEnvironment_run address]
  cases first with
  | here => rw [refused, Except.bind]
  | later right first =>
    obtain ⟨p, read⟩ := not_misread_iff.1 right
    rw [read, Except.bind]
    cases first with
    | here => rw [refused, Except.bind]
    | later right first =>
      obtain ⟨c, read⟩ := not_misread_iff.1 right
      rw [read, Except.bind]
      cases first with
      | here => rw [refused, Except.bind]
      | later _ first => cases first

theorem host_iff {host : String} : (Config.text? env "HOST").getD "0.0.0.0" = host ↔
    env.Holds "HOST" host ∨ (∀ text, ¬ env.Holds "HOST" text) ∧ host = "0.0.0.0" := by
  rw [← Environment.text?_eq_none_iff, ← Environment.text?_eq_some_iff]
  cases Config.text? env "HOST" <;> simp [eq_comm]

theorem redis_iff {redis : Option String} : (Config.text? env "REDIS_URL").filter (· ≠ "") = redis ↔
    ∀ url, redis = some url ↔ env.Holds "REDIS_URL" url ∧ url ≠ "" := by
  rw [eq_comm, Option.ext_iff]
  simp [Option.filter_eq_some_iff, Environment.text?_eq_some_iff]

theorem ofEnvironment_yields (env : Environment) : Yields env (Config.ofEnvironment env) := by
  by_cases none : ∀ url, ¬ env.Holds "DATABASE_URL" url
  · rw [ofEnvironment_missing none]
    exact .missing none
  obtain ⟨url, address⟩ := not_forall_not.1 none
  by_cases right : ∀ s ∈ all, ¬ s.Misread env
  · simp only [all, List.forall_mem_cons, not_misread_iff] at right
    obtain ⟨⟨p, hp⟩, ⟨c, hc⟩, ⟨d, hd⟩, -⟩ := right
    rw [ofEnvironment_run address, hp, hc, hd]
    refine .accepted ⟨address, host_iff.1 rfl, redis_iff.1 rfl, ?_⟩
    simp only [all, List.forall_mem_cons]
    exact ⟨read_ok_iff.1 hp, read_ok_iff.1 hc, read_ok_iff.1 hd, nofun⟩
  · simp only [not_forall, not_not] at right
    obtain ⟨t, ht, misread⟩ := right
    obtain ⟨s, first⟩ := exists_first ht misread
    obtain ⟨e, refused⟩ := misread_iff.1 first.holds
    rw [ofEnvironment_refused address first refused]
    obtain ⟨text, reason, holds, why, rfl⟩ := read_error_iff.1 refused
    exact .invalid address first holds why

theorem Yields.outcome {r : Except ConfigError Config} (h : Yields env r) : Config.ofEnvironment env = r := by
  cases h with
  | missing none => exact ofEnvironment_missing none
  | invalid address first holds why =>
    exact ofEnvironment_refused address first (read_error_iff.2 ⟨_, _, holds, why, rfl⟩)
  | @accepted cfg taken =>
    have read : ∀ s ∈ all, s.read env = .ok (s.kept cfg) := fun s hs => read_ok_iff.2 (taken.numbers s hs)
    simp only [all, List.forall_mem_cons] at read
    obtain ⟨hp, hc, hd, -⟩ := read
    rw [ofEnvironment_run taken.address, hp, hc, hd, host_iff.2 taken.host, redis_iff.2 taken.redis]
    rfl

/-- The texts in an environment determine what comes of it. -/
theorem yields_iff {r : Except ConfigError Config} : Yields env r ↔ Config.ofEnvironment env = r :=
  ⟨Yields.outcome, fun h => h ▸ ofEnvironment_yields env⟩

/-! ## Values that are noticed -/

/-- The outcome `r` takes notice of every value in `env`. -/
structure Heeds (env : Environment) (r : Except ConfigError Config) : Prop where
  /-- a default stands only for what is unset -/
  numbers : ∀ cfg, r = .ok cfg → ∀ s ∈ all, s.Gives env (s.kept cfg) ∨ env s.key = none ∧ s.kept cfg = s.fallback
  /-- where there is an address, the first number that is set wrong is named -/
  named : ∀ url, env.Holds "DATABASE_URL" url → ∀ s, First (Wrong env) all s →
    ∃ reason, r = .error (.invalid s.key reason)
  /-- the address is missing only if it is unset -/
  missing : r = .error (.missing "DATABASE_URL") → env "DATABASE_URL" = none

/-- The address is not damaged, and if there is one, then the first wrong number is not. -/
def Spared (env : Environment) : Prop :=
  ¬ env.Damaged "DATABASE_URL" ∧
    ∀ url, env.Holds "DATABASE_URL" url → ∀ s, First (Wrong env) all s → ¬ env.Damaged s.key

theorem heeds_missing_iff (none : ∀ url, ¬ env.Holds "DATABASE_URL" url) :
    Heeds env (.error (.missing "DATABASE_URL")) ↔ Spared env := by
  constructor
  · intro heeds
    refine ⟨?_, fun url address => absurd address (none url)⟩
    rintro ⟨bytes, set, -⟩
    rw [heeds.missing rfl] at set
    cases set
  · rintro ⟨sound, -⟩
    refine ⟨nofun, fun url address => absurd address (none url), fun _ => ?_⟩
    exact (Environment.unset_or_damaged none).resolve_right sound

theorem heeds_invalid_iff {url : String} {s : Setting} {reason : IntegerFault} (address : env.Holds "DATABASE_URL" url)
    (first : First (Misread env) all s) : Heeds env (.error (.invalid s.key reason)) ↔ Spared env := by
  constructor
  · intro heeds
    refine ⟨address.not_damaged, fun url' address' t wrong => ?_⟩
    obtain ⟨reason', named⟩ := heeds.named url' address' t wrong
    obtain ⟨same, -⟩ := ConfigError.invalid.inj (Except.error.inj named)
    obtain ⟨⟨text, holds⟩, -⟩ := first.holds
    rw [← same]
    exact holds.not_damaged
  · rintro ⟨-, sound⟩
    refine ⟨nofun, fun url' address' t wrong => ⟨reason, ?_⟩, nofun⟩
    have misread : t.Misread env := wrong.holds.misread (sound url' address' t wrong)
    obtain rfl := first.unique (wrong.among (fun _ => Misread.wrong) misread)
    rfl

theorem heeds_accepted_iff {cfg : Config} (taken : cfg.TakenFrom env) : Heeds env (.ok cfg) ↔ Spared env := by
  constructor
  · intro heeds
    refine ⟨taken.address.not_damaged, fun url address s wrong => ?_⟩
    obtain ⟨reason, named⟩ := heeds.named url address s wrong
    cases named
  · rintro ⟨-, sound⟩
    -- the first wrong number would hold a text, and every text is read
    have right : ∀ s ∈ all, ¬ s.Wrong env := by
      intro t ht wrong
      obtain ⟨s, first⟩ := exists_first ht wrong
      have misread : s.Misread env := first.holds.misread (sound _ taken.address s first)
      have read : s.read env = .ok (s.kept cfg) := read_ok_iff.2 (taken.numbers s first.mem)
      exact not_misread_iff.2 ⟨_, read⟩ misread
    refine ⟨?_, ?_, nofun⟩
    · rintro _ ⟨⟩ s hs
      rcases taken.numbers s hs with given | ⟨bare, default⟩
      · exact .inl given
      · rcases Environment.unset_or_damaged bare with unset | damaged
        · exact .inr ⟨unset, default⟩
        · exact absurd (wrong_of_damaged damaged) (right s hs)
    · intro url _ s first
      exact absurd first.holds (right s first.mem)

theorem Yields.heeds_iff {r : Except ConfigError Config} (h : Yields env r) : Heeds env r ↔ Spared env := by
  cases h with
  | missing none => exact heeds_missing_iff none
  | invalid address first _ _ => exact heeds_invalid_iff address first
  | accepted taken => exact heeds_accepted_iff taken

/-- **Which values are noticed.** For every environment, what comes of it is told from the texts in it; and every value
is noticed just if the address of the database is not damaged, nor, where there is one, the first of the numbers that
are set wrong. -/
theorem values_heeded_iff (env : Environment) :
    (∀ r, Config.ofEnvironment env = r ↔ Yields env r) ∧ (Heeds env (Config.ofEnvironment env) ↔ Spared env) := by
  constructor
  · intro r
    exact yields_iff.symm
  · exact (ofEnvironment_yields env).heeds_iff

/-- an environment with an address of the database, and with a port that is one byte and no text -/
def damagedPort : Environment := fun key =>
  if key = "DATABASE_URL" then some (ascii "postgres://localhost/orders".toList)
  else if key = "PORT" then some [0xFF]
  else none

/-- The service listens on the usual port, though another is set. -/
theorem damaged_port_passed_over :
    damagedPort "PORT" = some [0xFF] ∧
      Config.ofEnvironment damagedPort = .ok ⟨"postgres://localhost/orders", "0.0.0.0", 8080, none, 300, 10⟩ ∧
      ¬ Heeds damagedPort (Config.ofEnvironment damagedPort) := by
  have accepted : Config.ofEnvironment damagedPort =
      .ok ⟨"postgres://localhost/orders", "0.0.0.0", 8080, none, 300, 10⟩ := by decide +kernel
  have bare : Config.text? damagedPort "PORT" = none := by decide +kernel
  refine ⟨rfl, accepted, fun heeds => ?_⟩
  rcases heeds.numbers _ accepted port List.mem_cons_self with ⟨-, text, holds, -⟩ | ⟨unset, -⟩
  · exact Environment.text?_eq_none_iff.1 bare text holds
  · cases unset

end PickupPoint
