import Workflow.Proofs.Text
import Workflow.Settings

/-!
# Reading settings

Settings are read just if each variable that is looked at is well-formed, and they say what the variables say. If not,
the first offending variable is reported. Main statement: `settings_settle`.
-/

namespace Workflow

/-! ## What the variables say -/

def Variable.place : Variable → Nat
  | eventStore => 0
  | databaseUrl => 1
  | maxConnections => 2
  | retryMaxAttempts => 3
  | retryBaseDelay => 4

def Variable.limit : Variable → Nat
  | retryBaseDelay => Word.count64
  | _ => Word.count32

theorem Variable.place_injective : Function.Injective Variable.place := by
  intro u v h
  cases u <;> cases v <;> first | rfl | cases h

namespace Settings

section
variable (lookup : String → Option String)

def Unset (v : Variable) : Prop :=
  ∀ raw, lookup v.name = some raw → Text.Blank raw

def Says (v : Variable) (text : String) : Prop :=
  ∃ raw, lookup v.name = some raw ∧ Text.Trimmed raw text

def Counts (v : Variable) (n : Nat) : Prop :=
  ∃ text, Says lookup v text ∧ Text.Numeral text n

def Stands (v : Variable) (default n : Nat) : Prop :=
  Unset lookup v ∧ n = default ∨ Counts lookup v n ∧ n < v.limit

def InMemory : Prop :=
  Unset lookup .eventStore ∨ Says lookup .eventStore "in-memory" ∨ Says lookup .eventStore "memory"

def Postgres : Prop :=
  Says lookup .eventStore "postgres"

/-- What has to be the case for no complaint about a variable. Those of the database count for a database only. -/
def WellFormed : Variable → Prop
  | .eventStore => InMemory lookup ∨ Postgres lookup
  | .databaseUrl => Postgres lookup → ∃ url, lookup Variable.databaseUrl.name = some url ∧ ¬ Text.Blank url
  | .maxConnections => Postgres lookup →
      Unset lookup .maxConnections ∨ ∃ n, Counts lookup .maxConnections n ∧ 1 ≤ n ∧ n < Word.count32
  | .retryMaxAttempts => Unset lookup .retryMaxAttempts ∨ ∃ n, Counts lookup .retryMaxAttempts n ∧ n < Word.count32
  | .retryBaseDelay => Unset lookup .retryBaseDelay ∨ ∃ n, Counts lookup .retryBaseDelay n ∧ n < Word.count64

def Unreadable (v : Variable) (raw : String) : Prop :=
  lookup v.name = some raw ∧ ¬ Text.Blank raw ∧ ∀ n, Counts lookup v n → v.limit ≤ n

/-- How a variable that is not well-formed is reported. What is no number is shown as it stands, with the blank space
around it. -/
inductive Reported : Variable → SettingsError → Prop
  | kind {text : String} (h : Says lookup .eventStore text) : Reported .eventStore (.invalid .eventStore text)
  | url : Reported .databaseUrl (.missing .databaseUrl)
  | zero (h : Counts lookup .maxConnections 0) : Reported .maxConnections (.invalid .maxConnections "0")
  | number {v : Variable} {raw : String} (hv : v = .maxConnections ∨ v = .retryMaxAttempts ∨ v = .retryBaseDelay)
      (h : Unreadable lookup v raw) : Reported v (.invalid v raw)

inductive Chosen : Backend → Prop
  | inMemory (h : InMemory lookup) : Chosen .inMemory
  | postgres {url : String} {n : Nat} (h : Postgres lookup) (hurl : lookup Variable.databaseUrl.name = some url)
      (hblank : ¬ Text.Blank url) (hn : Stands lookup .maxConnections 5 n) (hpos : 1 ≤ n) : Chosen (.postgres url n)

/-- The first variable in order that is not well-formed, and how it is reported. -/
def Complaint (error : SettingsError) : Prop :=
  ∃ v, ¬ WellFormed lookup v ∧ (∀ u, u.place < v.place → WellFormed lookup u) ∧ Reported lookup v error

end

variable {lookup : String → Option String} {v : Variable} {error error' : SettingsError}

theorem bind_eq_ok_iff {α β : Type} {x : Except SettingsError α} {f : α → Except SettingsError β} {b : β} :
    x >>= f = .ok b ↔ ∃ a, x = .ok a ∧ f a = .ok b := by
  cases x <;> simp [bind, Except.bind]

theorem bind_eq_error_iff {α β : Type} {x : Except SettingsError α} {f : α → Except SettingsError β} :
    x >>= f = .error error ↔ x = .error error ∨ ∃ a, x = .ok a ∧ f a = .error error := by
  cases x <;> simp [bind, Except.bind]

theorem says_iff {text : String} : Says lookup v text ↔ (lookup v.name).map Text.trim = some text := by
  simp only [Says, Option.map_eq_some_iff, Text.trim_eq_iff]

theorem Says.unique {text text' : String} (h : Says lookup v text) (h' : Says lookup v text') : text = text' := by
  rw [says_iff] at h h'
  exact Option.some.inj (h.symm.trans h')

theorem Counts.unique {n m : Nat} (h : Counts lookup v n) (h' : Counts lookup v m) : n = m := by
  obtain ⟨text, htext, hn⟩ := h
  obtain ⟨text', htext', hm⟩ := h'
  obtain rfl := htext.unique htext'
  exact hn.unique hm

theorem unset_iff : Unset lookup v ↔ lookup v.name = none ∨ Says lookup v "" := by
  simp only [Unset, says_iff, ← Text.trim_eq_empty_iff]
  cases lookup v.name <;> simp

theorem Counts.not_unset {n : Nat} (h : Counts lookup v n) : ¬ Unset lookup v := by
  obtain ⟨text, htext, hn⟩ := h
  intro hunset
  rcases unset_iff.mp hunset with hnone | hempty
  · obtain ⟨raw, hraw, -⟩ := htext
    rw [hnone] at hraw
    cases hraw
  · obtain rfl := htext.unique hempty
    obtain ⟨digits, hdigits | hdigits, hne, -⟩ := hn
    · exact hne hdigits.symm
    · cases hdigits

theorem exists_raw (h : ¬ Unset lookup v) : ∃ raw, lookup v.name = some raw ∧ ¬ Text.Blank raw := by
  unfold Unset at h
  push Not at h
  exact h

/-! ## Numbers -/

section
variable {default n : Nat}

theorem counts_iff {raw : String} (hraw : lookup v.name = some raw) :
    Counts lookup v n ↔ Text.Numeral (Text.trim raw) n := by
  have htrim : Says lookup v (Text.trim raw) := ⟨raw, hraw, Text.trimmed_trim raw⟩
  constructor
  · rintro ⟨text, htext, hn⟩
    rwa [htext.unique htrim] at hn
  · intro hn
    exact ⟨_, htrim, hn⟩

theorem readNumber_of_unset (h : Unset lookup v) : readNumber lookup v v.limit default = .ok default := by
  unfold readNumber
  cases hraw : lookup v.name with
  | none => rfl
  | some raw => exact if_pos (Text.trim_eq_empty_iff.mpr (h raw hraw))

theorem readNumber_of_set {raw : String} (hraw : lookup v.name = some raw) (hblank : ¬ Text.Blank raw) :
    readNumber lookup v v.limit default =
      (Text.numeral? v.limit (Text.trim raw)).elim (.error (.invalid v raw)) .ok := by
  have htext : Text.trim raw ≠ "" := mt Text.trim_eq_empty_iff.mp hblank
  unfold readNumber
  simp only [hraw]
  rw [if_neg htext]
  cases Text.numeral? v.limit (Text.trim raw) <;> rfl

theorem readNumber_eq_ok_iff : readNumber lookup v v.limit default = .ok n ↔ Stands lookup v default n := by
  by_cases h : Unset lookup v
  · rw [readNumber_of_unset h]
    constructor
    · rintro ⟨⟩
      exact .inl ⟨h, rfl⟩
    · rintro (⟨-, rfl⟩ | ⟨hn, -⟩)
      · rfl
      · exact absurd h hn.not_unset
  · obtain ⟨raw, hraw, hblank⟩ := exists_raw h
    rw [readNumber_of_set hraw hblank, Stands, counts_iff hraw, ← Text.numeral?_eq_some_iff]
    cases Text.numeral? v.limit (Text.trim raw) <;> simp [h]

theorem readNumber_eq_error_iff : readNumber lookup v v.limit default = .error error ↔
    ∃ raw, Unreadable lookup v raw ∧ error = .invalid v raw := by
  by_cases h : Unset lookup v
  · rw [readNumber_of_unset h]
    refine iff_of_false nofun ?_
    rintro ⟨raw, ⟨hraw, hblank, -⟩, -⟩
    exact hblank (h raw hraw)
  · obtain ⟨raw, hraw, hblank⟩ := exists_raw h
    have hnone : (∀ n, Counts lookup v n → v.limit ≤ n) ↔ Text.numeral? v.limit (Text.trim raw) = none := by
      simp only [Option.eq_none_iff_forall_ne_some, ne_eq, Text.numeral?_eq_some_iff, counts_iff hraw, not_and,
        Nat.not_lt]
    rw [readNumber_of_set hraw hblank]
    simp only [Unreadable, hraw, Option.some.injEq, hnone, and_assoc, exists_eq_left']
    cases Text.numeral? v.limit (Text.trim raw) <;> simp [hblank, eq_comm]

theorem exists_stands_iff :
    (∃ n, Stands lookup v default n) ↔ Unset lookup v ∨ ∃ n, Counts lookup v n ∧ n < v.limit := by
  constructor
  · rintro ⟨n, ⟨h, -⟩ | h⟩
    · exact .inl h
    · exact .inr ⟨n, h⟩
  · rintro (h | ⟨n, h⟩)
    · exact ⟨default, .inl ⟨h, rfl⟩⟩
    · exact ⟨n, .inr h⟩

theorem Unreadable.not_counts {raw : String} (h : Unreadable lookup v raw) :
    ¬ (Unset lookup v ∨ ∃ n, Counts lookup v n ∧ n < v.limit) := by
  obtain ⟨hraw, hblank, hlarge⟩ := h
  rintro (hunset | ⟨n, hn, hlt⟩)
  · exact hblank (hunset raw hraw)
  · exact absurd hlt (Nat.not_lt.mpr (hlarge n hn))

end

/-! ## The backend -/

theorem readBackend_of_kind {text : String} (h : Says lookup .eventStore text) :
    readBackend lookup =
      if text = "" ∨ text = "in-memory" ∨ text = "memory" then .ok .inMemory
      else if text = "postgres" then readDatabase lookup
      else .error (.invalid .eventStore text) := by
  unfold readBackend
  rw [says_iff.mp h]

theorem inMemory_iff {text : String} (h : Says lookup .eventStore text) :
    InMemory lookup ↔ text = "" ∨ text = "in-memory" ∨ text = "memory" := by
  have htrim : ∀ kind, Says lookup .eventStore kind ↔ text = kind := by
    intro kind
    exact ⟨h.unique, fun heq => heq ▸ h⟩
  have hthere : lookup Variable.eventStore.name ≠ none := by
    obtain ⟨raw, hraw, -⟩ := h
    simp [hraw]
  simp only [InMemory, unset_iff, htrim, hthere, false_or]

theorem readBackend_of_inMemory (h : InMemory lookup) : readBackend lookup = .ok .inMemory := by
  cases hraw : lookup Variable.eventStore.name with
  | none => simp [readBackend, hraw]
  | some raw =>
    have htrim : Says lookup .eventStore (Text.trim raw) := ⟨raw, hraw, Text.trimmed_trim raw⟩
    rw [readBackend_of_kind htrim, if_pos ((inMemory_iff htrim).mp h)]

theorem Postgres.not_inMemory (h : Postgres lookup) : ¬ InMemory lookup := by
  rw [inMemory_iff h]
  decide

theorem readBackend_of_postgres (h : Postgres lookup) : readBackend lookup = readDatabase lookup := by
  rw [readBackend_of_kind h]
  rfl

theorem readBackend_of_other (hi : ¬ InMemory lookup) (hp : ¬ Postgres lookup) :
    ∃ text, Says lookup .eventStore text ∧ readBackend lookup = .error (.invalid .eventStore text) := by
  obtain ⟨raw, hraw, -⟩ := exists_raw fun h => hi (.inl h)
  have htrim : Says lookup .eventStore (Text.trim raw) := ⟨raw, hraw, Text.trimmed_trim raw⟩
  refine ⟨_, htrim, ?_⟩
  have hpostgres : Text.trim raw ≠ "postgres" := by
    intro heq
    rw [heq] at htrim
    exact hp htrim
  rw [readBackend_of_kind htrim, if_neg (mt (inMemory_iff htrim).mpr hi), if_neg hpostgres]

theorem readDatabase_of_unset (h : Unset lookup .databaseUrl) :
    readDatabase lookup = .error (.missing .databaseUrl) := by
  have hnone : (lookup Variable.databaseUrl.name).filter (Text.trim · ≠ "") = none := by
    rw [Option.filter_eq_none_iff]
    intro url hurl
    simpa [Text.trim_eq_empty_iff] using h url hurl
  unfold readDatabase
  rw [hnone]

theorem readDatabase_of_url {url : String} (hurl : lookup Variable.databaseUrl.name = some url)
    (hblank : ¬ Text.Blank url) :
    readDatabase lookup = readNumber lookup .maxConnections (Variable.limit .maxConnections) 5 >>= fun n =>
      if n = 0 then .error (.invalid .maxConnections "0") else .ok (.postgres url n) := by
  have hsome : (lookup Variable.databaseUrl.name).filter (Text.trim · ≠ "") = some url := by
    rw [Option.filter_eq_some_iff]
    exact ⟨hurl, by simpa [Text.trim_eq_empty_iff] using hblank⟩
  unfold readDatabase
  rw [hsome]
  rfl

theorem readDatabase_eq_ok_iff {b : Backend} : readDatabase lookup = .ok b ↔
    ∃ url n, lookup Variable.databaseUrl.name = some url ∧ ¬ Text.Blank url ∧ Stands lookup .maxConnections 5 n ∧
      1 ≤ n ∧ b = .postgres url n := by
  by_cases hunset : Unset lookup .databaseUrl
  · rw [readDatabase_of_unset hunset]
    refine iff_of_false nofun ?_
    rintro ⟨url, n, hurl, hblank, -⟩
    exact hblank (hunset url hurl)
  · obtain ⟨url, hurl, hblank⟩ := exists_raw hunset
    rw [readDatabase_of_url hurl hblank, bind_eq_ok_iff]
    constructor
    · rintro ⟨n, hn, h⟩
      by_cases hzero : n = 0
      · rw [if_pos hzero] at h
        cases h
      · rw [if_neg hzero] at h
        cases h
        exact ⟨url, n, hurl, hblank, readNumber_eq_ok_iff.mp hn, by omega, rfl⟩
    · rintro ⟨url', n, hurl', -, hn, hpos, rfl⟩
      obtain rfl : url = url' := Option.some.inj (hurl.symm.trans hurl')
      exact ⟨n, readNumber_eq_ok_iff.mpr hn, if_neg (by omega)⟩

theorem readBackend_eq_ok_iff {b : Backend} : readBackend lookup = .ok b ↔ Chosen lookup b := by
  by_cases hi : InMemory lookup
  · rw [readBackend_of_inMemory hi]
    constructor
    · rintro ⟨⟩
      exact .inMemory hi
    · rintro (_ | ⟨hp, -, -, -, -⟩)
      · rfl
      · exact absurd hi hp.not_inMemory
  by_cases hp : Postgres lookup
  · rw [readBackend_of_postgres hp, readDatabase_eq_ok_iff]
    constructor
    · rintro ⟨url, n, hurl, hblank, hn, hpos, rfl⟩
      exact .postgres hp hurl hblank hn hpos
    · rintro (h | ⟨-, hurl, hblank, hn, hpos⟩)
      · exact absurd h hi
      · exact ⟨_, _, hurl, hblank, hn, hpos, rfl⟩
  · obtain ⟨text, -, hother⟩ := readBackend_of_other hi hp
    rw [hother]
    refine iff_of_false nofun ?_
    rintro (h | ⟨h, -, -, -, -⟩)
    · exact hi h
    · exact hp h

/-! ## Complaints -/

theorem complaint_of_unset (hp : Postgres lookup) (h : Unset lookup .databaseUrl) :
    Complaint lookup (.missing .databaseUrl) := by
  refine ⟨.databaseUrl, ?_, ?_, .url⟩
  · intro hwell
    obtain ⟨url, hurl, hblank⟩ := hwell hp
    exact hblank (h url hurl)
  · intro u hu
    cases u with
    | eventStore => exact .inr hp
    | _ => exact absurd hu (by decide)

section
variable {url : String} (hp : Postgres lookup) (hurl : lookup Variable.databaseUrl.name = some url)
  (hblank : ¬ Text.Blank url)
include hp hurl hblank

theorem wellFormed_before_connections (u : Variable) (hu : u.place < Variable.maxConnections.place) :
    WellFormed lookup u := by
  cases u with
  | eventStore => exact .inr hp
  | databaseUrl => exact fun _ => ⟨url, hurl, hblank⟩
  | _ => exact absurd hu (by decide)

theorem complaint_of_connections {raw : String} (h : Unreadable lookup .maxConnections raw) :
    Complaint lookup (.invalid .maxConnections raw) := by
  refine ⟨.maxConnections, ?_, wellFormed_before_connections hp hurl hblank, .number (.inl rfl) h⟩
  intro hwell
  apply h.not_counts
  rcases hwell hp with hunset | ⟨n, hn, -, hlt⟩
  · exact .inl hunset
  · exact .inr ⟨n, hn, hlt⟩

theorem complaint_of_no_connections (h : Counts lookup .maxConnections 0) :
    Complaint lookup (.invalid .maxConnections "0") := by
  refine ⟨.maxConnections, ?_, wellFormed_before_connections hp hurl hblank, .zero h⟩
  intro hwell
  rcases hwell hp with hunset | ⟨n, hn, hpos, -⟩
  · exact h.not_unset hunset
  · obtain rfl := hn.unique h
    cases hpos

end

theorem complaint_of_readDatabase (hp : Postgres lookup) (h : readDatabase lookup = .error error) :
    Complaint lookup error := by
  by_cases hunset : Unset lookup .databaseUrl
  · rw [readDatabase_of_unset hunset] at h
    cases h
    exact complaint_of_unset hp hunset
  obtain ⟨url, hurl, hblank⟩ := exists_raw hunset
  rw [readDatabase_of_url hurl hblank, bind_eq_error_iff, readNumber_eq_error_iff] at h
  rcases h with ⟨raw, hraw, rfl⟩ | ⟨n, hn, h⟩
  · exact complaint_of_connections hp hurl hblank hraw
  · by_cases hzero : n = 0
    · subst hzero
      rw [if_pos rfl] at h
      cases h
      -- the default is not zero, so the variable itself says zero
      rcases readNumber_eq_ok_iff.mp hn with ⟨-, hdefault⟩ | ⟨hcounts, -⟩
      · cases hdefault
      · exact complaint_of_no_connections hp hurl hblank hcounts
    · rw [if_neg hzero] at h
      cases h

theorem complaint_of_readBackend (h : readBackend lookup = .error error) : Complaint lookup error := by
  by_cases hi : InMemory lookup
  · rw [readBackend_of_inMemory hi] at h
    cases h
  by_cases hp : Postgres lookup
  · rw [readBackend_of_postgres hp] at h
    exact complaint_of_readDatabase hp h
  · obtain ⟨text, htext, hother⟩ := readBackend_of_other hi hp
    rw [hother] at h
    cases h
    refine ⟨.eventStore, ?_, fun u hu => absurd hu (Nat.not_lt_zero u.place), .kind htext⟩
    rintro (h | h)
    · exact hi h
    · exact hp h

theorem exists_chosen_iff :
    (∃ b, Chosen lookup b) ↔ ∀ u, u.place < Variable.retryMaxAttempts.place → WellFormed lookup u := by
  constructor
  · rintro ⟨b, hi | ⟨hp, hurl, hblank, hn, hpos⟩⟩ u hu
    · have hno : ¬ Postgres lookup := fun hp => hp.not_inMemory hi
      cases u with
      | eventStore => exact .inl hi
      | databaseUrl => exact fun hp => absurd hp hno
      | maxConnections => exact fun hp => absurd hp hno
      | _ => exact absurd hu (by decide)
    · cases u with
      | eventStore => exact .inr hp
      | databaseUrl => exact fun _ => ⟨_, hurl, hblank⟩
      | maxConnections =>
        intro _
        rcases hn with ⟨hunset, -⟩ | ⟨hcounts, hlt⟩
        · exact .inl hunset
        · exact .inr ⟨_, hcounts, hpos, hlt⟩
      | _ => exact absurd hu (by decide)
  · intro h
    rcases h .eventStore (by decide) with hi | hp
    · exact ⟨_, .inMemory hi⟩
    obtain ⟨url, hurl, hblank⟩ := h .databaseUrl (by decide) hp
    rcases h .maxConnections (by decide) hp with hunset | ⟨n, hcounts, hpos, hlt⟩
    · exact ⟨_, .postgres hp hurl hblank (.inl ⟨hunset, rfl⟩) (by decide)⟩
    · exact ⟨_, .postgres hp hurl hblank (.inr ⟨hcounts, hlt⟩) hpos⟩

theorem Reported.unique (h : Reported lookup v error) (h' : Reported lookup v error') : error = error' := by
  cases h with
  | kind htext =>
    cases h' with
    | kind htext' => rw [htext.unique htext']
    | number hv => simp at hv
  | url =>
    cases h' with
    | url => rfl
    | number hv => simp at hv
  | zero hzero =>
    cases h' with
    | zero => rfl
    | number _ hraw => exact absurd (hraw.2.2 0 hzero) (by decide)
  | number hv hraw =>
    cases h' with
    | number _ hraw' => rw [Option.some.inj (hraw.1.symm.trans hraw'.1)]
    | zero hzero => exact absurd (hraw.2.2 0 hzero) (by decide)
    | kind | url => simp at hv

theorem Complaint.unique (h : Complaint lookup error) (h' : Complaint lookup error') : error = error' := by
  obtain ⟨v, hv, hbefore, hreported⟩ := h
  obtain ⟨v', hv', hbefore', hreported'⟩ := h'
  rcases Nat.lt_trichotomy v.place v'.place with hlt | heq | hlt
  · exact absurd (hbefore' v hlt) hv
  · obtain rfl := Variable.place_injective heq
    exact hreported.unique hreported'
  · exact absurd (hbefore v' hlt) hv'

/-! ## The whole -/

def retryPolicy (attempts milliseconds : Nat) : RetryPolicy :=
  { RetryPolicy.standard with
    maxAttempts := attempts
    baseDelay := .ofMilliseconds milliseconds
    maxDelay := .ofMilliseconds (max 250 milliseconds) }

theorem retryPolicy_eq (attempts milliseconds : Nat) :
    (RetryPolicy.standard.withMaxAttempts attempts).withBaseDelay (.ofMilliseconds milliseconds) =
      retryPolicy attempts milliseconds := by
  have hmax : max (Duration.ofMilliseconds 250) (.ofMilliseconds milliseconds) =
      Duration.ofMilliseconds (max 250 milliseconds) :=
    congrArg Duration.mk (Nat.mul_max_mul_right 250 milliseconds Duration.millisecond)
  unfold retryPolicy
  rw [← hmax]
  rfl

theorem read_eq (lookup : String → Option String) :
    read lookup =
      readBackend lookup >>= fun backend =>
      readNumber lookup .retryMaxAttempts (Variable.limit .retryMaxAttempts) 16 >>= fun attempts =>
      readNumber lookup .retryBaseDelay (Variable.limit .retryBaseDelay) 5 >>= fun milliseconds =>
      .ok ⟨backend, retryPolicy attempts milliseconds⟩ := by
  simp only [← retryPolicy_eq]
  rfl

theorem read_eq_ok_iff {settings : Settings} : read lookup = .ok settings ↔
    ∃ backend attempts milliseconds, Chosen lookup backend ∧ Stands lookup .retryMaxAttempts 16 attempts ∧
      Stands lookup .retryBaseDelay 5 milliseconds ∧ settings = ⟨backend, retryPolicy attempts milliseconds⟩ := by
  rw [read_eq]
  simp only [bind_eq_ok_iff, readBackend_eq_ok_iff, readNumber_eq_ok_iff, Except.ok.injEq]
  constructor
  · rintro ⟨backend, hbackend, attempts, hattempts, milliseconds, hmilliseconds, rfl⟩
    exact ⟨backend, attempts, milliseconds, hbackend, hattempts, hmilliseconds, rfl⟩
  · rintro ⟨backend, attempts, milliseconds, hbackend, hattempts, hmilliseconds, rfl⟩
    exact ⟨backend, hbackend, attempts, hattempts, milliseconds, hmilliseconds, rfl⟩

theorem exists_read_iff : (∃ settings, read lookup = .ok settings) ↔ ∀ v, WellFormed lookup v := by
  constructor
  · rintro ⟨settings, h⟩ v
    obtain ⟨backend, attempts, milliseconds, hbackend, hattempts, hmilliseconds, -⟩ := read_eq_ok_iff.mp h
    have hbefore := exists_chosen_iff.mp ⟨backend, hbackend⟩
    cases v with
    | retryMaxAttempts => exact exists_stands_iff.mp ⟨attempts, hattempts⟩
    | retryBaseDelay => exact exists_stands_iff.mp ⟨milliseconds, hmilliseconds⟩
    | _ => exact hbefore _ (by decide)
  · intro h
    obtain ⟨backend, hbackend⟩ := exists_chosen_iff.mpr fun u _ => h u
    obtain ⟨attempts, hattempts⟩ := exists_stands_iff.mpr (h .retryMaxAttempts)
    obtain ⟨milliseconds, hmilliseconds⟩ := exists_stands_iff.mpr (h .retryBaseDelay)
    exact ⟨_, read_eq_ok_iff.mpr ⟨backend, attempts, milliseconds, hbackend, hattempts, hmilliseconds, rfl⟩⟩

theorem complaint_of_readNumber {default : Nat} (hv : v = .retryMaxAttempts ∨ v = .retryBaseDelay)
    (hbefore : ∀ u, u.place < v.place → WellFormed lookup u)
    (h : readNumber lookup v v.limit default = .error error) : Complaint lookup error := by
  obtain ⟨raw, hraw, rfl⟩ := readNumber_eq_error_iff.mp h
  refine ⟨v, ?_, hbefore, .number (.inr hv) hraw⟩
  rcases hv with rfl | rfl <;> exact hraw.not_counts

theorem complaint_of_read (h : read lookup = .error error) : Complaint lookup error := by
  simp only [read_eq, bind_eq_error_iff, readBackend_eq_ok_iff, readNumber_eq_ok_iff] at h
  rcases h with h | ⟨backend, hbackend, h | ⟨attempts, hattempts, h | ⟨milliseconds, -, h⟩⟩⟩
  · exact complaint_of_readBackend h
  · exact complaint_of_readNumber (.inl rfl) (exists_chosen_iff.mp ⟨backend, hbackend⟩) h
  · apply complaint_of_readNumber (.inr rfl) ?_ h
    have hbefore := exists_chosen_iff.mp ⟨backend, hbackend⟩
    intro u hu
    cases u with
    | retryMaxAttempts => exact exists_stands_iff.mp ⟨attempts, hattempts⟩
    | retryBaseDelay => exact absurd hu (by decide)
    | _ => exact hbefore _ (by decide)
  · cases h

theorem read_eq_error_iff : read lookup = .error error ↔ Complaint lookup error := by
  constructor
  · exact complaint_of_read
  · intro h
    -- some complaint is made, as not all variables are well-formed, and there is only one first
    cases hread : read lookup with
    | error error' => rw [h.unique (complaint_of_read hread)]
    | ok settings =>
      obtain ⟨v, hv, -⟩ := h
      exact absurd (exists_read_iff.mp ⟨settings, hread⟩ v) hv

theorem readNumber_congr {other : String → Option String} (h : other v.name = lookup v.name) (bound default : Nat) :
    readNumber other v bound default = readNumber lookup v bound default := by
  unfold readNumber
  rw [h]

theorem read_congr {other : String → Option String} (hi : InMemory lookup)
    (h : ∀ v : Variable, v ≠ .databaseUrl → v ≠ .maxConnections → other v.name = lookup v.name) :
    read other = read lookup := by
  have hstore : other Variable.eventStore.name = lookup Variable.eventStore.name := h _ (by decide) (by decide)
  have hi' : InMemory other := by
    unfold InMemory Unset Says
    rw [hstore]
    exact hi
  rw [read_eq, read_eq, readBackend_of_inMemory hi, readBackend_of_inMemory hi',
    readNumber_congr (h .retryMaxAttempts (by decide) (by decide)),
    readNumber_congr (h .retryBaseDelay (by decide) (by decide))]

/-- Settings are read just if no variable that is looked at is malformed. Then they are what the variables say, else
the first complaint is reported. With a store in memory the variables of the database are not looked at. -/
theorem settings_settle (lookup : String → Option String) :
    ((∃ settings, read lookup = .ok settings) ↔ ∀ v, WellFormed lookup v) ∧
    (∀ settings, read lookup = .ok settings ↔
      ∃ backend attempts milliseconds, Chosen lookup backend ∧ Stands lookup .retryMaxAttempts 16 attempts ∧
        Stands lookup .retryBaseDelay 5 milliseconds ∧ settings = ⟨backend, retryPolicy attempts milliseconds⟩) ∧
    (∀ error, read lookup = .error error ↔ Complaint lookup error) ∧
    (InMemory lookup → ∀ other : String → Option String,
      (∀ v : Variable, v ≠ .databaseUrl → v ≠ .maxConnections → other v.name = lookup v.name) →
        read other = read lookup) := by
  refine ⟨exists_read_iff, fun settings => read_eq_ok_iff, fun error => read_eq_error_iff, ?_⟩
  intro hi other h
  exact read_congr hi h

theorem settings_settle_memory :
    let shared := [("PROCFLOW_EVENT_STORE", " memory\t"), ("PROCFLOW_RETRY_MAX_ATTEMPTS", " +007 ")]
    let lookup := fun name => (shared ++ [("PROCFLOW_DB_MAX_CONNECTIONS", "none")]).lookup name
    let other := fun name => shared.lookup name
    let asked := fun name => [("PROCFLOW_EVENT_STORE", "postgres"), ("DATABASE_URL", "db"),
      ("PROCFLOW_DB_MAX_CONNECTIONS", " 4294967296"), ("PROCFLOW_RETRY_MAX_ATTEMPTS", "many")].lookup name
    (InMemory lookup ∧ ∀ v : Variable, v ≠ .databaseUrl → v ≠ .maxConnections → other v.name = lookup v.name) ∧
      read other = read lookup ∧ read lookup = .ok ⟨.inMemory, retryPolicy 7 5⟩ ∧
      read asked = .error (.invalid .maxConnections " 4294967296") := by
  intro shared lookup other asked
  have hmemory : InMemory lookup := .inr (.inr ⟨" memory\t", rfl, Text.trim_eq_iff.mp (by decide)⟩)
  have hsame : ∀ v : Variable, v ≠ .databaseUrl → v ≠ .maxConnections → other v.name = lookup v.name := by
    intro v hurl hconnections
    cases v with
    | databaseUrl => exact absurd rfl hurl
    | maxConnections => exact absurd rfl hconnections
    | _ => rfl
  obtain ⟨-, reads, -, -⟩ := settings_settle lookup
  obtain ⟨-, -, complains, -⟩ := settings_settle asked
  refine ⟨⟨hmemory, hsame⟩, (settings_settle lookup).2.2.2 hmemory other hsame, (reads _).mpr ?_,
    (complains _).mpr ?_⟩
  · have hattempts : Counts lookup .retryMaxAttempts 7 :=
      ⟨"+007", ⟨" +007 ", rfl, Text.trim_eq_iff.mp (by decide)⟩, Text.digits?_unsigned_iff.mp (by decide)⟩
    have hdelay : Unset lookup .retryBaseDelay := unset_iff.mpr (.inl rfl)
    exact ⟨_, 7, 5, .inMemory hmemory, .inr ⟨hattempts, by decide⟩, .inl ⟨hdelay, rfl⟩, rfl⟩
  · have hpostgres : Postgres asked := ⟨"postgres", rfl, Text.trim_eq_iff.mp (by decide)⟩
    have hblank : ¬ Text.Blank "db" := mt Text.trim_eq_empty_iff.mpr (by decide)
    have hcounts : Counts asked .maxConnections 4294967296 :=
      ⟨"4294967296", ⟨_, rfl, Text.trim_eq_iff.mp (by decide)⟩, Text.digits?_unsigned_iff.mp (by decide)⟩
    have hset : ¬ Text.Blank " 4294967296" := mt Text.trim_eq_empty_iff.mpr (by decide)
    apply complaint_of_connections hpostgres rfl hblank
    refine ⟨rfl, hset, fun n hn => ?_⟩
    obtain rfl := hn.unique hcounts
    decide

end Settings

end Workflow
