import Z80Sbc.Concurrent.Run
import Z80Sbc.Weather.Service
import Mathlib.Tactic.Common

/-! # The weather snapshot

A history is kept beside the service: the request that is outstanding, the current conditions that
were accepted in the refresh under way, and the replies that were published. A reply is read into
its own fields, whatever they held, and into no others. -/

namespace Z80Sbc.Weather.Snapshot
open Z80Sbc.Weather Z80Sbc.Weather.JsonScan Z80Sbc.Concurrent

/-! ## Fields of a reply -/

/-- The fields of the forecast, and of the current conditions. -/
def ownField (forecast : Bool) (k : Nat) : Bool :=
  if forecast then (6 ≤ k && k ≤ 9) || k == 14 else k ≤ 5 || k == 13

def AgreeOn (l : List Nat) (f g : Fields) : Prop := ∀ k ∈ l, f k = g k

/-- Two readings of one reply, into different fields. -/
structure Alike (forecast : Bool) (a b : Fields × Bool) : Prop where
  found : a.2 = b.2
  same : a.2 = true → ∀ k, ownField forecast k = true → a.1 k = b.1 k

theorem store_alike {forecast : Bool} {l : List Nat} {k : Nat} {found : List UInt8 × Bool}
    {next : Fields → Fields × Bool}
    (h : ∀ f g, AgreeOn (k :: l) f g → Alike forecast (next f) (next g)) (f g : Fields)
    (hfg : AgreeOn l f g) : Alike forecast (store k found next f) (store k found next g) := by
  unfold store
  by_cases hfound : found.2 = true
  · rw [if_pos hfound, if_pos hfound]
    refine h _ _ fun j hj => ?_
    unfold Fields.put
    by_cases hjk : j = k
    · rw [if_pos hjk, if_pos hjk]
    · rw [if_neg hjk, if_neg hjk]
      exact hfg j ((List.mem_cons.mp hj).resolve_left hjk)
  · rw [if_neg hfound, if_neg hfound]
    exact ⟨rfl, fun h => by cases h⟩

theorem alike_of_agree {forecast : Bool} {l : List Nat} {f g : Fields}
    (hall : ∀ k, ownField forecast k = true → k ∈ l) (h : AgreeOn l f g) :
    Alike forecast (f, true) (g, true) :=
  ⟨rfl, fun _ k hk => h k (hall k hk)⟩

theorem capitalize_agree {l : List Nat} {k : Nat} {f g : Fields} (hk : k ∈ l) (h : AgreeOn l f g) :
    AgreeOn l (f.put k (capitalize (f k))) (g.put k (capitalize (g k))) := by
  intro j hj
  unfold Fields.put
  by_cases hjk : j = k
  · rw [if_pos hjk, if_pos hjk, h k hk]
  · rw [if_neg hjk, if_neg hjk]
    exact h j hj

theorem ownField_forecast {k : Nat} (h : ownField true k = true) : k ∈ [9, 14, 8, 7, 6] := by
  unfold ownField at h
  simp only [if_true, Bool.or_eq_true, Bool.and_eq_true, decide_eq_true_iff, beq_iff_eq] at h
  simp only [List.mem_cons, List.not_mem_nil, or_false]
  omega

theorem ownField_current {k : Nat} (h : ownField false k = true) : k ∈ [5, 4, 0, 13, 3, 2, 1] := by
  unfold ownField at h
  simp only [Bool.false_eq_true, if_false, Bool.or_eq_true, decide_eq_true_iff, beq_iff_eq] at h
  simp only [List.mem_cons, List.not_mem_nil, or_false]
  omega

theorem parseConditions_alike (floats : Floats) (item : Object) (forecast : Bool) (f g : Fields) :
    Alike forecast (parseConditions floats item f forecast) (parseConditions floats item g forecast) := by
  unfold parseConditions
  cases object item (text "main") with
  | none => exact ⟨rfl, fun h => by cases h⟩
  | some main =>
    cases firstArrayObject item (text "weather") with
    | none => exact ⟨rfl, fun h => by cases h⟩
    | some weather =>
      refine store_alike (l := []) (fun f g h => ?_) f g fun k hk => by cases hk
      refine store_alike (fun f g h => ?_) f g h
      refine store_alike (fun f g h => ?_) f g h
      refine store_alike (fun f g h => ?_) f g h
      have hcapital := capitalize_agree (List.mem_cons_of_mem _ (List.mem_cons_of_mem _
        List.mem_cons_self)) h
      cases forecast with
      | true => exact store_alike (fun f g h => alike_of_agree (fun k => ownField_forecast) h) _ _ hcapital
      | false =>
        refine store_alike (fun f g h => ?_) _ _ hcapital
        refine store_alike (fun f g h => ?_) f g h
        cases object item (text "wind") with
        | none => exact ⟨rfl, fun h => by cases h⟩
        | some wind =>
          exact store_alike (fun f g h => alike_of_agree (fun k => ownField_current) h) f g h

/-- What is no field of the reply stays. -/
def Frame (forecast : Bool) (next : Fields → Fields × Bool) : Prop :=
  ∀ f k, ownField forecast k = false → (next f).1 k = f k

theorem store_frame {forecast : Bool} {k : Nat} {found : List UInt8 × Bool}
    {next : Fields → Fields × Bool} (hk : ownField forecast k = true) (h : Frame forecast next) :
    Frame forecast (store k found next) := by
  intro f j hj
  have hne : j ≠ k := by
    rintro rfl
    rw [hk] at hj
    cases hj
  unfold store
  split
  · rw [h _ j hj]
    exact if_neg hne
  · exact if_neg hne

theorem parseConditions_frame (floats : Floats) (item : Object) (forecast : Bool) :
    Frame forecast fun f => parseConditions floats item f forecast := by
  unfold parseConditions
  cases object item (text "main") with
  | none => exact fun _ _ _ => rfl
  | some main =>
    cases firstArrayObject item (text "weather") with
    | none => exact fun _ _ _ => rfl
    | some weather =>
      refine store_frame (by cases forecast <;> decide) ?_
      refine store_frame (by cases forecast <;> decide) ?_
      refine store_frame (by cases forecast <;> decide) ?_
      refine store_frame (by cases forecast <;> decide) ?_
      intro f k hk
      have hcapital : (f.put ((if forecast = true then 6 else 1) + 1)
          (capitalize (f ((if forecast = true then 6 else 1) + 1)))) k = f k := by
        refine if_neg ?_
        rintro rfl
        cases forecast <;> cases hk
      cases forecast with
      | true =>
        refine Eq.trans ?_ hcapital
        exact @store_frame true 9 _ (fun output => (output, true)) (by decide) (fun _ _ _ => rfl) _ k hk
      | false =>
        refine Eq.trans ?_ hcapital
        refine store_frame (by decide) ?_ _ k hk
        refine store_frame (by decide) ?_
        cases object item (text "wind") with
        | none => exact fun _ _ _ => rfl
        | some wind => exact store_frame (by decide) fun _ _ _ => rfl

/-- The texts of a reply that is accepted. -/
def replyTexts (floats : Floats) (reply : Reply) (forecast : Bool) : Option Fields :=
  let parsed := parseReply floats reply forecast Fields.blank
  if parsed.1 = [] then some parsed.2 else none

/-- One reply read into two sets of fields. -/
structure Read (forecast : Bool) (f g : Fields) (a b : List UInt8 × Fields) : Prop where
  message : a.1 = b.1
  frame : ∀ k, ownField forecast k = false → a.2 k = f k
  same : a.1 = [] → ∀ k, ownField forecast k = true → a.2 k = b.2 k

theorem Read.refused {forecast : Bool} {f g : Fields} {message : List UInt8} (h : message ≠ []) :
    Read forecast f g (message, f) (message, g) :=
  ⟨rfl, fun _ _ => rfl, fun hnil => absurd hnil h⟩

theorem Read.parsed {forecast : Bool} {f g : Fields} {a b : Fields × Bool} (h : Alike forecast a b)
    (hframe : ∀ k, ownField forecast k = false → a.1 k = f k) :
    Read forecast f g (if a.2 then [] else text "Invalid weather JSON fields", a.1)
      (if b.2 then [] else text "Invalid weather JSON fields", b.1) := by
  refine ⟨by rw [h.found], hframe, fun hnil => h.same ?_⟩
  cases hfound : a.2 with
  | true => rfl
  | false =>
    rw [hfound] at hnil
    exact absurd (show text "Invalid weather JSON fields" = [] from hnil) (by decide)

theorem parseReply_read (floats : Floats) (reply : Reply) (forecast : Bool) (f g : Fields) :
    Read forecast f g (parseReply floats reply forecast f) (parseReply floats reply forecast g) := by
  unfold parseReply
  cases reply.error with
  | some error =>
    refine Read.refused fun hnil => error.2 ?_
    rw [List.take_eq_nil_iff] at hnil
    exact hnil.resolve_left (by decide)
  | none =>
    dsimp only
    split
    · exact Read.refused fun hnil => absurd (List.append_eq_nil_iff.mp hnil).1 (by decide)
    cases reply.body with
    | none => exact Read.refused (by decide)
    | some body =>
      dsimp only
      split
      · exact Read.refused (by decide)
      split
      swap
      · exact Read.refused (by decide)
      cases forecast with
      | false =>
        exact Read.parsed (parseConditions_alike floats _ false f g)
          (parseConditions_frame floats _ false f)
      | true =>
        cases firstArrayObject ⟨body, [0]⟩ (text "list") with
        | none =>
          exact Read.parsed (a := (f, false)) (b := (g, false)) ⟨rfl, fun h => by cases h⟩
            fun _ _ => rfl
        | some item =>
          exact Read.parsed (parseConditions_alike floats item true f g)
            (parseConditions_frame floats item true f)

/-- A reply that is accepted has its texts in its fields. -/
theorem parseReply_spec (floats : Floats) (reply : Reply) (forecast : Bool) (pending : Fields) :
    (∀ k, ownField forecast k = false → (parseReply floats reply forecast pending).2 k = pending k) ∧
      ((parseReply floats reply forecast pending).1 = [] ∧
          (∃ texts, replyTexts floats reply forecast = some texts ∧
            ∀ k, ownField forecast k = true →
              (parseReply floats reply forecast pending).2 k = texts k) ∨
        (parseReply floats reply forecast pending).1 ≠ [] ∧
          replyTexts floats reply forecast = none) := by
  obtain ⟨hmessage, hframe, hsame⟩ := parseReply_read floats reply forecast pending Fields.blank
  refine ⟨hframe, ?_⟩
  by_cases hnil : (parseReply floats reply forecast pending).1 = []
  · exact Or.inl ⟨hnil, _, if_pos (hmessage.symm.trans hnil), hsame hnil⟩
  · exact Or.inr ⟨hnil, if_neg fun h => hnil (hmessage.trans h)⟩

/-! ## Paths -/

theorem length_encode (source : List UInt8) : (encode source).length ≤ 3 * source.length := by
  induction source with
  | nil => exact Nat.zero_le _
  | cons c rest ih =>
    unfold encode at ih ⊢
    rw [List.flatMap_cons, List.length_append, List.length_cons]
    have hone : (if (97 ≤ c ∧ c ≤ 122) ∨ (65 ≤ c ∧ c ≤ 90) ∨ (48 ≤ c ∧ c ≤ 57) ∨ c = 45 ∨ c = 95 ∨
        c = 46 ∨ c = 126 then [c] else [37, hexDigit (c >>> 4), hexDigit (c &&& 15)]).length ≤ 3 := by
      split
      · exact Nat.le_add_left 1 2
      · exact Nat.le_refl 3
    omega

structure Bounded (config : Config) : Prop where
  key : config.key.length ≤ 40
  location : config.location.length ≤ 64
  units : config.units.length ≤ 11

theorem bounded_zero : Bounded Config.zero := ⟨Nat.zero_le _, Nat.zero_le _, Nat.zero_le _⟩

theorem readSetting_length {name : List UInt8} {value : Option (List UInt8)} {capacity : Nat}
    {error : List UInt8} (h : 0 < capacity) :
    (readSetting name value capacity error).1.length ≤ capacity - 1 := by
  unfold readSetting
  cases value with
  | none => exact Nat.zero_le _
  | some value =>
    dsimp only
    split
    · exact Nat.zero_le _
    · dsimp only
      omega

theorem bounded_nextConfig (settings : Settings) : Bounded (nextConfig settings) := by
  unfold nextConfig
  split
  · exact ⟨Nat.zero_le _, Nat.zero_le _, Nat.zero_le _⟩
  · refine ⟨readSetting_length (by decide), readSetting_length (by decide), ?_⟩
    dsimp only
    split
    · decide
    · exact readSetting_length (by decide)

theorem encodeLocation_length {floats : Floats} {location path : List UInt8}
    (h : encodeLocation floats location = some path) : path.length ≤ 9 + 3 * location.length := by
  unfold encodeLocation at h
  split at h
  · dsimp only at h
    split at h
    · cases h
    split at h
    · cases h
    obtain rfl := Option.some.inj h
    have hlat := length_encode ((location.drop 4).take (floats.strtod (location.drop 4)).2.1)
    have hlon := length_encode
      (((location.drop 4).drop (floats.strtod (location.drop 4)).2.1).drop 5)
    simp only [List.length_append, List.length_take, List.length_drop] at hlat hlon ⊢
    have hfour : (text "lat=").length = 4 := by decide
    have hfive : (text "&lon=").length = 5 := by decide
    omega
  · obtain rfl := Option.some.inj h
    have hall := length_encode location
    have htwo : (text "q=").length = 2 := by decide
    rw [List.length_append]
    omega

/-- A path is built exactly for a valid location. -/
theorem buildPath_isSome {floats : Floats} {config : Config} (h : Bounded config) (forecast : Bool) :
    (buildPath floats config forecast).isSome = (encodeLocation floats config.location).isSome := by
  unfold buildPath
  cases hlocation : encodeLocation floats config.location with
  | none => rfl
  | some location =>
    have hlength := encodeLocation_length hlocation
    have hkey := length_encode config.key
    have hbounds := h.key
    have hbounds' := h.location
    have hbounds'' := h.units
    have hforecast : (if forecast = true then text "forecast" else text "weather").length ≤ 8 := by
      cases forecast <;> decide
    have hcount : (if forecast = true then text "&cnt=1" else []).length ≤ 6 := by
      cases forecast <;> decide
    have hdata : (text "/data/2.5/").length = 10 := by decide
    have hquery : (text "?").length = 1 := by decide
    have happid : (text "&appid=").length = 7 := by decide
    have hunits : (text "&units=").length = 7 := by decide
    dsimp only
    rw [if_pos]
    · rfl
    · simp only [List.length_append, hdata, hquery, happid, hunits]
      omega

theorem nextConfig_ne_zero (settings : Settings) : nextConfig settings ≠ Config.zero := by
  intro h
  unfold nextConfig at h
  split at h
  · exact absurd (congrArg (fun config => config.error.headD 0) h) (by decide)
  · have hunits := congrArg Config.units h
    dsimp only at hunits
    split at hunits
    · exact absurd hunits (by decide)
    next hne => exact hne hunits

/-! ## Histories -/

structure Request where
  config : Config
  forecast : Bool

/-- The service with its history: the request without a result, the current conditions that were
accepted in the refresh under way, and the replies that were last published. -/
structure System where
  weather : State
  outstanding : Option Request
  current : Option (Request × Reply)
  published : Option ((Request × Reply) × Option (Request × Reply))
  /-- A request was started before the last one had its result. -/
  overlap : Bool

def System.initial : System :=
  { weather := init .initial, outstanding := none, current := none, published := none
    overlap := false }

inductive Action
  | poll (p : Poll)
  | result (reply : Reply) (now : BitVec 64)

/-- A request has its result. -/
def answer (floats : Floats) (request : Request) (reply : Reply) (s : System) : System :=
  let accepted :=
    (replyTexts floats reply request.forecast).map fun _ => (request, reply)
  if request.forecast then
    { s with
      outstanding := none, current := none
      published := s.current.map fun current => (current, accepted) }
  else { s with outstanding := none, current := accepted }

/-- A call that a poll has made under `config`. -/
def note (floats : Floats) (p : Poll) (config : Config) (s : System) (call : Call) : System :=
  match call with
  | .cancel => { s with outstanding := none, current := none }
  | .start forecast _ =>
    let s := { s with
      overlap := s.overlap || s.outstanding.isSome
      outstanding := some ⟨config, forecast⟩
      current := if forecast then s.current else none }
    if p.started then s else answer floats ⟨config, forecast⟩ cannotStart s

def step (floats : Floats) (s : System) (a : Action) : System :=
  match a with
  | .poll p =>
    let next := poll floats p s.weather
    next.2.foldl (note floats p next.1.config) { s with weather := next.1 }
  | .result reply now =>
    let next := { s with weather := result floats reply now s.weather }
    match s.outstanding with
    | none => next
    | some request => answer floats request reply next

/-! ## The invariant -/

/-- The fields are those of a current-conditions reply and of the forecast after it, or blank, both
asked for under the configuration in force. -/
structure Published (floats : Floats) (s : System) : Prop where
  replies : ∃ current forecast texts, s.published = some (current, forecast) ∧
    current.1 = ⟨s.weather.config, false⟩ ∧
    replyTexts floats current.2 false = some texts ∧
    (∀ k, ownField false k = true → s.weather.fields k = texts k) ∧
    (forecast = none ∧ (∀ k, ownField true k = true → s.weather.fields k = []) ∨
      ∃ reply texts', forecast = some (⟨s.weather.config, true⟩, reply) ∧
        replyTexts floats reply true = some texts' ∧
        ∀ k, ownField true k = true → s.weather.fields k = texts' k)
  unit : s.weather.fields 11 = unitSymbol s.weather.config

/-- A refresh waits for a result, or for the time to ask for the forecast. -/
def Refreshing (s : System) : Prop := s.outstanding.isSome = true ∨ s.current.isSome = true

/-- The current conditions are staged. -/
def Staged (floats : Floats) (s : System) : Prop :=
  ∃ reply texts, s.current = some (⟨s.weather.config, false⟩, reply) ∧
    replyTexts floats reply false = some texts ∧
    ∀ k, ownField false k = true → s.weather.pending k = texts k

structure Inv (floats : Floats) (s : System) : Prop where
  overlap : s.overlap = false
  enabled : s.weather.enabled = true
  bounded : Bounded s.weather.config
  unit : (s.weather.configDue = 0 ∧ s.weather.phase = 0 ∧ s.weather.haveData = false ∧
      s.weather.config = Config.zero) ∨ s.weather.fields 11 = unitSymbol s.weather.config
  phase : s.weather.phase = 0 ∧ s.outstanding = none ∧ s.current = none ∨
    (s.weather.phase = 1 ∧ s.outstanding = some ⟨s.weather.config, false⟩ ∧ s.current = none ∨
      s.weather.phase = 2 ∧ s.outstanding = none ∧ Staged floats s ∨
      s.weather.phase = 3 ∧ s.outstanding = some ⟨s.weather.config, true⟩ ∧ Staged floats s) ∧
    s.weather.pending 11 = unitSymbol s.weather.config ∧
    (encodeLocation floats s.weather.config.location).isSome = true
  fetching : s.weather.status = .fetching ↔ s.weather.phase ≠ 0
  published : s.weather.haveData = true → Published floats s

theorem inv_initial (floats : Floats) : Inv floats System.initial := by
  refine ⟨rfl, rfl, bounded_zero, Or.inl ⟨rfl, rfl, rfl, rfl⟩, Or.inl ⟨rfl, rfl, rfl⟩, ?_, ?_⟩
  · exact ⟨fun h => (by cases h), fun h => absurd rfl h⟩
  · intro h
    cases h

/-! ## Steps -/

section
variable {floats : Floats} {s : System}

/-- The message is no field of a snapshot. -/
theorem Published.kept {t : System} (h : Published floats s) (hpublished : t.published = s.published)
    (hconfig : t.weather.config = s.weather.config)
    (hfields : ∀ k, k ≠ 12 → t.weather.fields k = s.weather.fields k) : Published floats t := by
  obtain ⟨⟨current, forecast, texts, hreplies, hcurrent, htexts, hsame, hforecast⟩, hunit⟩ := h
  refine ⟨⟨current, forecast, texts, hpublished.trans hreplies, by rw [hconfig]; exact hcurrent,
    htexts, fun k hk => ?_, ?_⟩, ?_⟩
  · rw [hfields k (by rintro rfl; cases hk)]
    exact hsame k hk
  · obtain ⟨hnone, hblank⟩ | ⟨reply, texts', hsome, htexts', hsame'⟩ := hforecast
    · refine Or.inl ⟨hnone, fun k hk => ?_⟩
      rw [hfields k (by rintro rfl; cases hk)]
      exact hblank k hk
    · refine Or.inr ⟨reply, texts', by rw [hconfig]; exact hsome, htexts', fun k hk => ?_⟩
      rw [hfields k (by rintro rfl; cases hk)]
      exact hsame' k hk
  · rw [hfields 11 (by decide), hconfig]
    exact hunit

/-- A failure shows its message and ends the refresh. -/
theorem Inv.fail {message : List UInt8} {now : BitVec 64} {w : State} (h : Inv floats s)
    (hconfig : w.config = s.weather.config) (hfields : w.fields = s.weather.fields)
    (hdata : w.haveData = s.weather.haveData) (henabled : w.enabled = s.weather.enabled)
    (hloaded : s.weather.fields 11 = unitSymbol s.weather.config) :
    Inv floats { s with weather := fail message now w, outstanding := none, current := none } := by
  have hkept (k : Nat) (hk : k ≠ 12) : (Weather.fail message now w).fields k =
      s.weather.fields k := by
    rw [← hfields]
    exact if_neg hk
  have hunit : (Weather.fail message now w).fields 11 = unitSymbol w.config := by
    rw [hkept 11 (by decide), hconfig, hloaded]
  have hbounded : Bounded w.config := by
    rw [hconfig]
    exact h.bounded
  exact ⟨h.overlap, henabled.trans h.enabled, hbounded, Or.inr hunit,
    Or.inl ⟨rfl, rfl, rfl⟩, ⟨fun h => (by cases h), fun h => absurd rfl h⟩,
    fun hyes => (h.published (hdata.symm.trans hyes)).kept rfl hconfig hkept⟩

/-- The service after the result of a forecast. -/
def publishForecast (message : List UInt8) (pending : Fields) : Fields :=
  if message ≠ [] then
    (((((pending.put 6 []).put 7 []).put 8 []).put 9 []).put 14 []).put 12
      (text "Forecast: " ++ message.take 80)
  else pending

theorem publishForecast_blank {message : List UInt8} {pending : Fields} (h : message ≠ []) {k : Nat}
    (hk : ownField true k = true) : publishForecast message pending k = [] := by
  have hmem := ownField_forecast hk
  unfold publishForecast
  rw [if_pos h]
  simp only [List.mem_cons, List.not_mem_nil, or_false] at hmem
  rcases hmem with rfl | rfl | rfl | rfl | rfl <;> rfl

theorem publishForecast_same {message : List UInt8} {pending : Fields} {k : Nat}
    (hk : ownField true k = false) (h12 : k ≠ 12) : publishForecast message pending k = pending k := by
  have hne (j : Nat) (hj : ownField true j = true) : k ≠ j := by
    rintro rfl
    rw [hj] at hk
    cases hk
  unfold publishForecast
  split
  · unfold Fields.put
    simp only [if_neg h12, if_neg (hne 6 rfl), if_neg (hne 7 rfl), if_neg (hne 8 rfl),
      if_neg (hne 9 rfl), if_neg (hne 14 rfl)]
  · rfl

theorem result_forecast {reply : Reply} {now : BitVec 64} {w : State} (h : w.phase = 3) :
    Weather.result floats reply now w =
      { w with
        pending := publishForecast (parseReply floats reply true w.pending).1
          (parseReply floats reply true w.pending).2
        fields := publishForecast (parseReply floats reply true w.pending).1
          (parseReply floats reply true w.pending).2
        haveData := true, lastFetch := now, status := .ready, phase := 0
        fetchDue := now + REFRESH_MS } := by
  have hthree : decide (w.phase = 3) = true := decide_eq_true h
  unfold Weather.result
  rw [if_neg (by omega), hthree]
  dsimp only
  rw [if_neg (by omega)]
  rfl

theorem result_current {reply : Reply} {now : BitVec 64} {w : State} (h : w.phase = 1) :
    Weather.result floats reply now w =
      if (parseReply floats reply false w.pending).1 ≠ [] then
        Weather.fail (parseReply floats reply false w.pending).1 now
          { w with pending := (parseReply floats reply false w.pending).2 }
      else
        { w with
          pending := (parseReply floats reply false w.pending).2, phase := 2, fetchDue := now } := by
  have hthree : decide (w.phase = 3) = false := decide_eq_false (by omega)
  unfold Weather.result
  rw [if_neg (by omega), hthree]
  dsimp only
  rw [if_pos h]

/-- The result of the request that is outstanding. -/
theorem Inv.result {request : Request} {reply : Reply} {now : BitVec 64} (h : Inv floats s)
    (hrequest : s.outstanding = some request) :
    Inv floats (answer floats request reply
      { s with weather := Weather.result floats reply now s.weather }) := by
  obtain ⟨-, hnone, -⟩ | ⟨hphase, hunit, hlocation⟩ := h.phase
  · rw [hnone] at hrequest
    cases hrequest
  have hloaded : s.weather.fields 11 = unitSymbol s.weather.config := by
    obtain ⟨-, hzero, -⟩ | hloaded := h.unit
    · omega
    · exact hloaded
  obtain ⟨hone, hout, hcurrent⟩ | ⟨-, hnone, -⟩ | ⟨hthree, hout, hstaged⟩ := hphase
  · obtain rfl := Option.some.inj (hout.symm.trans hrequest)
    obtain ⟨hframe, ⟨hnil, texts, htexts, hsame⟩ | ⟨hmessage, hrefused⟩⟩ :=
      parseReply_spec floats reply false s.weather.pending
    · rw [result_current hone, if_neg fun hne => hne hnil]
      unfold answer
      rw [if_neg Bool.false_ne_true, htexts]
      refine ⟨h.overlap, h.enabled, h.bounded, Or.inr hloaded,
        Or.inr ⟨Or.inr (Or.inl ⟨rfl, rfl, reply, texts, rfl, htexts, hsame⟩), ?_, hlocation⟩, ?_,
        fun hdata => (h.published hdata).kept rfl rfl fun _ _ => rfl⟩
      · exact (hframe 11 rfl).trans hunit
      · exact ⟨fun _ => Nat.succ_ne_zero 1, fun _ => h.fetching.mpr (by omega)⟩
    · rw [result_current hone, if_pos hmessage]
      unfold answer
      rw [if_neg Bool.false_ne_true, hrefused]
      exact h.fail rfl rfl rfl rfl hloaded
  · rw [hnone] at hrequest
    cases hrequest
  · obtain rfl := Option.some.inj (hout.symm.trans hrequest)
    obtain ⟨reply', texts, hcurrent, htexts, hpending⟩ := hstaged
    obtain ⟨hframe, haccepted⟩ := parseReply_spec floats reply true s.weather.pending
    rw [result_forecast hthree]
    unfold answer
    rw [if_pos rfl, hcurrent, Option.map_some]
    have hown {k : Nat} (hk : ownField true k = false) (h12 : k ≠ 12) :
        publishForecast (parseReply floats reply true s.weather.pending).1
          (parseReply floats reply true s.weather.pending).2 k = s.weather.pending k :=
      (publishForecast_same hk h12).trans (hframe k hk)
    refine ⟨h.overlap, h.enabled, h.bounded, Or.inr ((hown rfl (by decide)).trans hunit),
      Or.inl ⟨rfl, rfl, rfl⟩, ⟨fun h => (by cases h), fun h => absurd rfl h⟩,
      fun _ => ⟨⟨_, _, texts, rfl, rfl, htexts, fun k hk => ?_, ?_⟩,
        (hown rfl (by decide)).trans hunit⟩⟩
    · have hmem := ownField_current hk
      have hother : ownField true k = false ∧ k ≠ 12 := by
        simp only [List.mem_cons, List.not_mem_nil, or_false] at hmem
        rcases hmem with rfl | rfl | rfl | rfl | rfl | rfl | rfl <;> decide
      exact (hown hother.1 hother.2).trans (hpending k hk)
    · obtain ⟨hnil, texts', htexts', hsame⟩ | ⟨hmessage, hrefused⟩ := haccepted
      · refine Or.inr ⟨reply, texts', by rw [htexts']; rfl, htexts', fun k hk => ?_⟩
        refine Eq.trans ?_ (hsame k hk)
        unfold publishForecast
        rw [if_neg fun hne => hne hnil]
      · exact Or.inl ⟨by rw [hrefused]; rfl, fun k hk => publishForecast_blank hmessage hk⟩

/-- A poll reads the settings when they are due, which they are at first. -/
theorem Inv.config {p : Poll} (h : Inv floats s) :
    let loaded := pollConfig p s.weather
    let t := if loaded.2 then { s with weather := loaded.1, outstanding := none, current := none }
      else { s with weather := loaded.1 }
    Inv floats t ∧ loaded.1.fields 11 = unitSymbol loaded.1.config ∧
      (loaded.2 = false → loaded.1.config = s.weather.config ∧
        loaded.1.fields = s.weather.fields ∧ loaded.1.haveData = s.weather.haveData ∧
        loaded.1.phase = s.weather.phase) ∧
      (loaded.2 = true → loaded.1.config ≠ s.weather.config ∧ loaded.1.haveData = false ∧
        ∀ k, k ≠ 11 → k ≠ 12 → loaded.1.fields k = []) := by
  dsimp only
  unfold pollConfig
  by_cases hdue : s.weather.configDue ≤ p.now
  swap
  · rw [if_neg hdue]
    refine ⟨h, ?_, fun _ => ⟨rfl, rfl, rfl, rfl⟩, fun hno => by cases hno⟩
    obtain ⟨hzero, -⟩ | hloaded := h.unit
    · rw [hzero] at hdue
      exact absurd (BitVec.le_def.mpr (Nat.zero_le _)) hdue
    · exact hloaded
  rw [if_pos hdue]
  unfold loadConfig
  dsimp only
  generalize p.now + CONFIG_MS = due
  by_cases hsame : nextConfig p.settings = s.weather.config
  · have hloaded : s.weather.fields 11 = unitSymbol s.weather.config := by
      obtain ⟨-, -, -, hzero⟩ | hloaded := h.unit
      · exact absurd (hsame.trans hzero) (nextConfig_ne_zero _)
      · exact hloaded
    rw [if_pos hsame]
    dsimp only
    rw [if_neg Bool.false_ne_true]
    exact ⟨⟨h.overlap, h.enabled, h.bounded, Or.inr hloaded, h.phase, h.fetching,
      fun hdata => (h.published hdata).kept rfl rfl fun _ _ => rfl⟩, hloaded,
      fun _ => ⟨rfl, rfl, rfl, rfl⟩, fun hno => by cases hno⟩
  rw [if_neg hsame]
  obtain ⟨w, hw⟩ : ∃ w, ({ s.weather with
    configDue := due, config := nextConfig p.settings
    fields := Fields.blank.put 11 (unitSymbol (nextConfig p.settings)), haveData := false, phase := 0
    startupRetries := 0, status := .none } : State) = w := ⟨_, rfl⟩
  have hinv : Inv floats { s with weather := w, outstanding := none, current := none } := by
    rw [← hw]
    exact ⟨h.overlap, h.enabled, bounded_nextConfig _, Or.inr rfl, Or.inl ⟨rfl, rfl, rfl⟩,
      ⟨fun h => (by cases h), fun h => absurd rfl h⟩, fun hno => by cases hno⟩
  have hconfig : w.config = nextConfig p.settings := by rw [← hw]
  have hdata : w.haveData = false := by rw [← hw]
  have hfields : w.fields = Fields.blank.put 11 (unitSymbol (nextConfig p.settings)) := by rw [← hw]
  have hunit : w.fields 11 = unitSymbol w.config := by
    rw [hfields, hconfig]
    rfl
  have hblank (k : Nat) (hk : k ≠ 11) : w.fields k = [] := by
    rw [hfields]
    exact if_neg hk
  rw [hw]
  split
  · refine ⟨hinv.fail rfl rfl rfl rfl hunit, ?_, fun hno => (by cases hno), fun _ =>
      ⟨fun heq => hsame (hconfig.symm.trans heq), hdata, fun k hk h12 => ?_⟩⟩
    · exact hunit
    · exact (if_neg h12).trans (hblank k hk)
  · exact ⟨hinv, hunit, fun hno => (by cases hno), fun _ =>
      ⟨fun heq => hsame (hconfig.symm.trans heq), hdata, fun k hk _ => hblank k hk⟩⟩

/-- What the rest of a poll does to the snapshot: nothing but a message, unless the forecast could not
be asked for, which publishes the current conditions alone. -/
structure Polled (floats : Floats) (started : Bool) (s t : System) : Prop where
  inv : Inv floats t
  config : t.weather.config = s.weather.config
  fields : (∀ k, k ≠ 12 → t.weather.fields k = s.weather.fields k) ∧
      t.weather.haveData = s.weather.haveData ∨
    started = false ∧ s.weather.phase = 2 ∧ t.weather.haveData = true ∧
      ∃ current, s.current = some current ∧ t.published = some (current, none)

theorem Inv.offline (p : Poll) (h : Inv floats s)
    (hloaded : s.weather.fields 11 = unitSymbol s.weather.config) :
    Polled floats p.started s ((pollOffline s.weather).2.foldl
      (note floats p (pollOffline s.weather).1.config) { s with weather := (pollOffline s.weather).1 }) := by
  unfold pollOffline
  split
  · have hkept (k : Nat) (hk : k ≠ 12) : (s.weather.fields.put 12
        (text "Network or synchronized time unavailable")) k = s.weather.fields k := if_neg hk
    refine ⟨⟨h.overlap, h.enabled, h.bounded, Or.inr ((hkept 11 (by decide)).trans hloaded),
      Or.inl ⟨rfl, rfl, rfl⟩, ⟨fun hstatus => ?_, fun h => absurd rfl h⟩,
      fun hdata => (h.published hdata).kept rfl rfl hkept⟩, rfl, Or.inl ⟨hkept, rfl⟩⟩
    have hstatus' : (if s.weather.haveData = true then Status.ready else Status.none) = .fetching :=
      hstatus
    split at hstatus' <;> cases hstatus'
  · exact ⟨⟨h.overlap, h.enabled, h.bounded, h.unit, h.phase, h.fetching,
      fun hdata => (h.published hdata).kept rfl rfl fun _ _ => rfl⟩, rfl,
      Or.inl ⟨fun _ _ => rfl, rfl⟩⟩

/-- A refresh, or its second half, is begun. -/
theorem Inv.started {forecast : Bool} (h : Inv floats s)
    (hloaded : s.weather.fields 11 = unitSymbol s.weather.config)
    (hphase : s.weather.phase = if forecast then 2 else 0)
    (hlocation : (encodeLocation floats s.weather.config.location).isSome = true) :
    Inv floats { s with
      weather := { s.weather with
        pending := if forecast then s.weather.pending else Fields.blank.put 11 (s.weather.fields 11)
        phase := if forecast then 3 else 1, status := .fetching }
      overlap := s.overlap || s.outstanding.isSome
      outstanding := some ⟨s.weather.config, forecast⟩
      current := if forecast then s.current else none } := by
  cases forecast with
  | false =>
    have hzero : s.weather.phase = 0 := hphase
    obtain ⟨-, hout, hcurrent⟩ | ⟨hbusy, -⟩ := h.phase
    · refine ⟨?_, h.enabled, h.bounded, Or.inr hloaded, Or.inr ⟨Or.inl ⟨rfl, rfl, rfl⟩, hloaded,
        hlocation⟩, ⟨fun _ => Nat.one_ne_zero, fun _ => rfl⟩,
        fun hdata => (h.published hdata).kept rfl rfl fun _ _ => rfl⟩
      show (s.overlap || s.outstanding.isSome) = false
      rw [h.overlap, hout]
      rfl
    · omega
  | true =>
    have htwo : s.weather.phase = 2 := hphase
    obtain ⟨hzero, -⟩ | ⟨⟨hone, -⟩ | ⟨-, hout, hstaged⟩ | ⟨hthree, -⟩, hunit, -⟩ := h.phase
    · omega
    · omega
    · refine ⟨?_, h.enabled, h.bounded, Or.inr hloaded, Or.inr ⟨Or.inr (Or.inr ⟨rfl, rfl, hstaged⟩),
        hunit, hlocation⟩, ⟨fun _ => Nat.succ_ne_zero 2, fun _ => rfl⟩,
        fun hdata => (h.published hdata).kept rfl rfl fun _ _ => rfl⟩
      show (s.overlap || s.outstanding.isSome) = false
      rw [h.overlap, hout]
      rfl
    · omega

theorem cannotStart_message (forecast : Bool) (pending : Fields) :
    (parseReply floats cannotStart forecast pending).1 ≠ [] :=
  show (text "Cannot start weather HTTPS request").take 95 ≠ [] by decide

theorem result_config (reply : Reply) (now : BitVec 64) (w : State) :
    (Weather.result floats reply now w).config = w.config := by
  unfold Weather.result
  split
  · rfl
  · dsimp only
    split
    · split <;> rfl
    · rfl

/-- The answer to a request that could not be started: the current conditions are published alone
when it was for the forecast. -/
theorem Inv.refused {request : Request} {now : BitVec 64} (h : Inv floats s)
    (hrequest : s.outstanding = some request) {t : System}
    (ht : answer floats request cannotStart
      { s with weather := Weather.result floats cannotStart now s.weather } = t) :
    Inv floats t ∧ t.weather.config = s.weather.config ∧
      ((∀ k, k ≠ 12 → t.weather.fields k = s.weather.fields k) ∧
          t.weather.haveData = s.weather.haveData ∨
        t.weather.haveData = true ∧
          ∃ current, s.current = some current ∧ t.published = some (current, none)) := by
  subst ht
  have hinv := @Inv.result floats s request cannotStart now h hrequest
  obtain ⟨-, hnone, -⟩ | ⟨⟨hone, hout, -⟩ | ⟨-, hnone, -⟩ | ⟨hthree, hout, hstaged⟩, -⟩ := h.phase
  · rw [hnone] at hrequest
    cases hrequest
  · obtain rfl := Option.some.inj (hout.symm.trans hrequest)
    rw [result_current hone, if_pos (cannotStart_message _ _)] at hinv ⊢
    exact ⟨hinv, rfl, Or.inl ⟨fun k hk => if_neg hk, rfl⟩⟩
  · rw [hnone] at hrequest
    cases hrequest
  · obtain rfl := Option.some.inj (hout.symm.trans hrequest)
    obtain ⟨reply, texts, hcurrent, -⟩ := hstaged
    rw [result_forecast hthree] at hinv ⊢
    refine ⟨hinv, rfl, Or.inr ⟨rfl, _, hcurrent, ?_⟩⟩
    show s.current.map _ = _
    rw [hcurrent]
    rfl

theorem Inv.online (p : Poll) (changed : Bool) (h : Inv floats s)
    (hloaded : s.weather.fields 11 = unitSymbol s.weather.config) :
    Polled floats p.started s ((pollOnline floats p changed s.weather).2.foldl
      (note floats p (pollOnline floats p changed s.weather).1.config)
      { s with weather := (pollOnline floats p changed s.weather).1 }) := by
  unfold pollOnline
  dsimp only
  generalize (if (!s.weather.wasOnline || changed) = true then p.now + SETTLE_MS
    else s.weather.fetchDue) = due
  obtain ⟨r, hr⟩ : ∃ r, ({ s with weather := { s.weather with
    fetchDue := due, wasOnline := true } } : System) = r := ⟨_, rfl⟩
  have hinv : Inv floats r := by
    rw [← hr]
    exact ⟨h.overlap, h.enabled, h.bounded, h.unit, h.phase, h.fetching,
      fun hdata => (h.published hdata).kept rfl rfl fun _ _ => rfl⟩
  have hpolled {t : System} (ht : Polled floats p.started r t) : Polled floats p.started s t := by
    rw [← hr] at ht
    exact ⟨ht.inv, ht.config, ht.fields⟩
  have hloaded' : r.weather.fields 11 = unitSymbol r.weather.config := by
    rw [← hr]
    exact hloaded
  by_cases hwait : held s.weather.config.error ≠ [] ∨
    (s.weather.phase ≠ 0 ∧ s.weather.phase ≠ 2) ∨ p.now < due
  · rw [if_pos hwait]
    refine hpolled ?_
    rw [List.foldl_nil, hr]
    exact ⟨hinv, rfl, Or.inl ⟨fun _ _ => rfl, rfl⟩⟩
  rw [if_neg hwait]
  have hphase : s.weather.phase = 0 ∨ s.weather.phase = 2 := by omega
  have hbuilt := @buildPath_isSome floats _ h.bounded (decide (s.weather.phase = 2))
  cases hpath : buildPath floats s.weather.config (decide (s.weather.phase = 2)) with
  | none =>
    rw [hpath] at hbuilt
    obtain ⟨-, hout, hcurrent⟩ | ⟨-, -, hlocation⟩ := h.phase
    · refine hpolled ?_
      have hfail := @Inv.fail floats r (text "Invalid OWM_LOCATION; use a city or lat=...&lon=...")
        p.later r.weather hinv rfl rfl rfl rfl hloaded'
      rw [← hr] at hfail ⊢
      refine ⟨?_, rfl, Or.inl ⟨fun k hk => if_neg hk, rfl⟩⟩
      simp only [← hout, ← hcurrent] at hfail
      simp only [hout, hcurrent] at hfail ⊢
      exact hfail
    · rw [← hbuilt] at hlocation
      cases hlocation
  | some path =>
    rw [hpath] at hbuilt
    dsimp only
    rw [List.foldl_cons, List.foldl_nil]
    have hstart : r.weather.phase = if decide (s.weather.phase = 2) = true then 2 else 0 := by
      rw [← hr]
      rcases hphase with hzero | htwo
      · rw [hzero]
        rfl
      · rw [htwo]
        rfl
    have hlocation : (encodeLocation floats r.weather.config.location).isSome = true := by
      rw [← hr]
      exact hbuilt.symm
    have hstarted := hinv.started hloaded' hstart hlocation
    rw [← hr] at hstarted
    refine hpolled ?_
    rw [← hr]
    unfold note
    dsimp only
    by_cases hyes : p.started = true
    · rw [if_pos hyes, if_pos hyes]
      exact ⟨hstarted, rfl, Or.inl ⟨fun _ _ => rfl, rfl⟩⟩
    · rw [if_neg hyes, if_neg hyes]
      obtain ⟨hinv', hconfig, hfields⟩ := @Inv.refused floats _ _ p.later hstarted rfl _ rfl
      rw [Bool.eq_false_iff.mpr hyes, result_config]
      refine ⟨hinv', hconfig, ?_⟩
      obtain hsame | ⟨hdata, current, hcurrent, hpublished⟩ := hfields
      · exact Or.inl hsame
      · dsimp only at hcurrent
        split at hcurrent
        next hforecast =>
          exact Or.inr ⟨rfl, of_decide_eq_true hforecast, hdata, current, hcurrent, hpublished⟩
        · cases hcurrent

end

/-! ## Runs -/

/-- What holds after every step. -/
structure Consistent (floats : Floats) (s : System) : Prop where
  single : s.overlap = false
  published : s.weather.haveData = true → Published floats s
  fetching : s.weather.status = .fetching ↔ Refreshing s

/-- What a step must not do. -/
structure Careful (floats : Floats) (s : System) (a : Action) (t : System) : Prop where
  stray : ∀ reply now, a = .result reply now → s.outstanding = none → t = s
  current : ∀ reply now request, a = .result reply now → s.outstanding = some request →
    request.forecast = false →
      (∀ k, k ≠ 12 → t.weather.fields k = s.weather.fields k) ∧
        t.weather.haveData = s.weather.haveData
  forecast : ∀ reply now request, a = .result reply now → s.outstanding = some request →
    request.forecast = true → t.weather.haveData = true ∧
      ∃ conditions, s.current = some conditions ∧ t.published =
        some (conditions, (replyTexts floats reply true).map fun _ => (request, reply))
  /-- A poll publishes only where the forecast cannot be started. -/
  poll : ∀ p, a = .poll p → t.weather.config = s.weather.config →
    (∀ k, k ≠ 12 → t.weather.fields k = s.weather.fields k) ∧
        t.weather.haveData = s.weather.haveData ∨
      p.started = false ∧ s.weather.phase = 2 ∧ t.weather.haveData = true ∧
        ∃ conditions, s.current = some conditions ∧ t.published = some (conditions, none)
  changed : ∀ p, a = .poll p → t.weather.config ≠ s.weather.config →
    t.weather.haveData = false ∧ ∀ k, k ≠ 11 → k ≠ 12 →
      t.weather.fields k = [] ∧ ∀ now, readField t.weather now k = none

theorem Inv.consistent {floats : Floats} {s : System} (h : Inv floats s) : Consistent floats s := by
  refine ⟨h.overlap, h.published, ?_⟩
  rw [h.fetching]
  unfold Refreshing
  obtain ⟨hzero, hout, hcurrent⟩ | ⟨⟨hone, hout, -⟩ | ⟨htwo, -, reply, texts, hcurrent, -⟩ |
    ⟨hthree, hout, -⟩, -⟩ := h.phase
  · rw [hzero, hout, hcurrent]
    exact ⟨fun h => absurd rfl h, fun h => by rcases h with h | h <;> cases h⟩
  · rw [hone, hout]
    exact ⟨fun _ => Or.inl rfl, fun _ => Nat.one_ne_zero⟩
  · rw [htwo, hcurrent]
    exact ⟨fun _ => Or.inr rfl, fun _ => Nat.succ_ne_zero 1⟩
  · rw [hthree, hout]
    exact ⟨fun _ => Or.inl rfl, fun _ => Nat.succ_ne_zero 2⟩

theorem step_stray {floats : Floats} {s : System} (reply : Reply) (now : BitVec 64)
    (h : Inv floats s) (hout : s.outstanding = none) : step floats s (.result reply now) = s := by
  have hidle : s.weather.phase ≠ 1 ∧ s.weather.phase ≠ 3 := by
    obtain ⟨hzero, -⟩ | ⟨⟨-, hsome, -⟩ | ⟨htwo, -⟩ | ⟨-, hsome, -⟩, -⟩ := h.phase
    · omega
    · rw [hout] at hsome
      cases hsome
    · omega
    · rw [hout] at hsome
      cases hsome
  have hsame : Weather.result floats reply now s.weather = s.weather := if_pos hidle
  unfold step
  dsimp only
  rw [hsame]
  split
  · rfl
  next request hsome =>
    rw [hout] at hsome
    cases hsome

theorem step_answer {floats : Floats} {s : System} {request : Request} (reply : Reply)
    (now : BitVec 64) (hout : s.outstanding = some request) :
    step floats s (.result reply now) = answer floats request reply
      { s with weather := Weather.result floats reply now s.weather } := by
  unfold step
  dsimp only
  split
  next hnone =>
    rw [hout] at hnone
    cases hnone
  next request' hsome =>
    obtain rfl := Option.some.inj (hout.symm.trans hsome)
    rfl

theorem step_result {floats : Floats} {s : System} (reply : Reply) (now : BitVec 64)
    (h : Inv floats s) : Inv floats (step floats s (.result reply now)) ∧
      Careful floats s (.result reply now) (step floats s (.result reply now)) := by
  cases hout : s.outstanding with
  | none =>
    rw [step_stray reply now h hout]
    refine ⟨h, fun _ _ _ _ => rfl, fun _ _ _ _ hsome => ?_, fun _ _ _ _ hsome => ?_, fun _ hp => ?_,
      fun _ hp => ?_⟩
    · rw [hout] at hsome
      cases hsome
    · rw [hout] at hsome
      cases hsome
    · cases hp
    · cases hp
  | some request =>
    rw [step_answer reply now hout]
    refine ⟨h.result hout, fun _ _ _ hnone => ?_, fun reply' now' request' ha hsome hforecast => ?_,
      fun reply' now' request' ha hsome hforecast => ?_, fun _ hp => ?_, fun _ hp => ?_⟩
    · rw [hout] at hnone
      cases hnone
    · obtain rfl := Option.some.inj (hout.symm.trans hsome)
      have hone : s.weather.phase = 1 := by
        obtain ⟨-, hnone, -⟩ | ⟨⟨hone, -⟩ | ⟨-, hnone, -⟩ | ⟨-, hsome', -⟩, -⟩ := h.phase
        · rw [hout] at hnone
          cases hnone
        · exact hone
        · rw [hout] at hnone
          cases hnone
        · obtain rfl := Option.some.inj (hout.symm.trans hsome')
          cases hforecast
      unfold answer
      rw [if_neg (by rw [hforecast]; decide), result_current hone]
      dsimp only
      split
      · exact ⟨fun k hk => if_neg hk, rfl⟩
      · exact ⟨fun _ _ => rfl, rfl⟩
    · obtain rfl := Option.some.inj (hout.symm.trans hsome)
      obtain ⟨rfl, -⟩ := Action.result.inj ha
      obtain ⟨hthree, reply'', texts, hcurrent, -⟩ : s.weather.phase = 3 ∧ Staged floats s := by
        obtain ⟨-, hnone, -⟩ | ⟨⟨-, hsome', -⟩ | ⟨-, hnone, -⟩ | ⟨hthree, -, hstaged⟩, -⟩ := h.phase
        · rw [hout] at hnone
          cases hnone
        · obtain rfl := Option.some.inj (hout.symm.trans hsome')
          cases hforecast
        · rw [hout] at hnone
          cases hnone
        · exact ⟨hthree, hstaged⟩
      unfold answer
      rw [if_pos hforecast, result_forecast hthree, hforecast]
      refine ⟨rfl, _, hcurrent, ?_⟩
      show s.current.map _ = _
      rw [hcurrent]
      rfl
    · cases hp
    · cases hp

/-- A poll: the settings first, then the network. -/
theorem step_poll {floats : Floats} {s : System} (p : Poll) (h : Inv floats s) :
    Inv floats (step floats s (.poll p)) ∧ Careful floats s (.poll p) (step floats s (.poll p)) := by
  obtain ⟨hinv, hloaded, hkept, hchanged⟩ := h.config (p := p)
  obtain ⟨r, hr⟩ : ∃ r, (if (pollConfig p s.weather).2 = true then
    ({ s with weather := (pollConfig p s.weather).1, outstanding := none, current := none } : System)
    else { s with weather := (pollConfig p s.weather).1 }) = r := ⟨_, rfl⟩
  rw [hr] at hinv
  have hweather : r.weather = (pollConfig p s.weather).1 := by
    rw [← hr]
    split <;> rfl
  have hunit : r.weather.fields 11 = unitSymbol r.weather.config := by
    rw [hweather]
    exact hloaded
  have hstep : Polled floats p.started r (step floats s (.poll p)) := by
    have honline := hinv.online p (pollConfig p s.weather).2 hunit
    have hoffline := hinv.offline p hunit
    rw [hweather] at honline hoffline
    obtain ⟨next, hnext⟩ : ∃ next, (if p.online = true then
      pollOnline floats p (pollConfig p s.weather).2 (pollConfig p s.weather).1
      else pollOffline (pollConfig p s.weather).1) = next := ⟨_, rfl⟩
    have hpoll : poll floats p s.weather =
        (next.1, (if (pollConfig p s.weather).2 = true then [Call.cancel] else []) ++ next.2) := by
      unfold poll
      rw [h.enabled, ← hnext]
      rfl
    unfold step
    dsimp only
    rw [hpoll, List.foldl_append]
    have hfirst : (if (pollConfig p s.weather).2 = true then [Call.cancel] else []).foldl
        (note floats p next.1.config) { s with weather := next.1 } = { r with weather := next.1 } := by
      rw [← hr]
      split <;> rfl
    rw [hfirst, ← hnext]
    split
    · exact honline
    · exact hoffline
  refine ⟨hstep.inv, fun _ _ ha => (by cases ha), fun _ _ _ ha => (by cases ha),
    fun _ _ _ ha => (by cases ha), fun p' ha hsame => ?_, fun p' ha hdiffers => ?_⟩
  · obtain rfl := Action.poll.inj ha
    cases hload : (pollConfig p s.weather).2 with
    | true =>
      refine absurd ?_ (hchanged hload).1
      rw [← hweather, ← hstep.config, hsame]
    | false =>
      obtain ⟨-, hfields, hdata, hphase⟩ := hkept hload
      rw [← hweather] at hfields hdata hphase
      have hcurrent : r.current = s.current := by
        rw [← hr, hload]
        rfl
      have hmoved := hstep.fields
      rw [hfields, hdata, hphase, hcurrent] at hmoved
      exact hmoved
  · obtain rfl := Action.poll.inj ha
    cases hload : (pollConfig p s.weather).2 with
    | false =>
      refine absurd ?_ hdiffers
      rw [hstep.config, hweather, (hkept hload).1]
    | true =>
      obtain ⟨-, hdata, hblank⟩ := hchanged hload
      rw [← hweather] at hdata hblank
      obtain ⟨hfields, hdata'⟩ | ⟨-, -, -, current, hcurrent, -⟩ := hstep.fields
      · refine ⟨hdata'.trans hdata, fun k hk h12 => ⟨(hfields k h12).trans (hblank k hk h12),
          fun now => ?_⟩⟩
        unfold readField
        split
        · rfl
        · rw [if_pos ⟨hk, h12, by rw [hdata', hdata]; rfl⟩]
      · rw [← hr, hload] at hcurrent
        cases hcurrent

def history (floats : Floats) (actions : List Action) : System :=
  run (step floats) System.initial actions

theorem history_inv (floats : Floats) (actions : List Action) : Inv floats (history floats actions) :=
  run_invariant (fun s a h => by
    cases a with
    | poll p => exact (step_poll p h).1
    | result reply now => exact (step_result reply now h).1) (inv_initial floats) actions

/-- Whatever is polled and whatever arrives, one request at most is outstanding, what is shown is one
refresh under the configuration in force, and a failure shows no more than its message. -/
theorem snapshot_consistent (floats : Floats) (actions : List Action) (a : Action) :
    Consistent floats (history floats actions) ∧
      Consistent floats (history floats (actions ++ [a])) ∧
      Careful floats (history floats actions) a (history floats (actions ++ [a])) := by
  have hinv := history_inv floats actions
  refine ⟨hinv.consistent, (history_inv floats _).consistent, ?_⟩
  have hnext : history floats (actions ++ [a]) = step floats (history floats actions) a :=
    run_append _ _ _
  rw [hnext]
  cases a with
  | poll p => exact (step_poll p hinv).2
  | result reply now => exact (step_result reply now hinv).2

end Z80Sbc.Weather.Snapshot
