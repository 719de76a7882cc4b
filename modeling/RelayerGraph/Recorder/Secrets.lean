import RelayerGraph.Recorder.Bounds

/-!
# What callers write is kept without capabilities

The texts of a search that an event carries, the query and its parameters, hold
no capability that the recorder had received or passed on by the time it made
the event.  A capability is expected to share nothing with the mark that is put
in its place.
-/

namespace RelayerGraph

namespace GraphOperationRecorder

open Foundation

/-! ## Texts of a value -/

variable {settings : Settings} {eventBytes : Event → ℕ}

mutual

/-- The texts of a value at any depth; the names of fields are none. -/
def Json.texts : Json → List String
  | .string value => [value]
  | .array items => Json.textsOfItems items
  | .object fields => Json.textsOfEntries fields
  | .null => []
  | .bool _ => []
  | .number _ => []

def Json.textsOfItems : List Json → List String
  | [] => []
  | item :: items => item.texts ++ Json.textsOfItems items

def Json.textsOfEntries : List (String × Json) → List String
  | [] => []
  | (_, value) :: entries => value.texts ++ Json.textsOfEntries entries

end

theorem Json.textsOfEntries_append (entries others : List (String × Json)) :
    Json.textsOfEntries (entries ++ others) =
      Json.textsOfEntries entries ++ Json.textsOfEntries others := by
  induction entries with
  | nil => rfl
  | cons entry entries ih =>
      rw [List.cons_append, Json.textsOfEntries, Json.textsOfEntries, ih,
        List.append_assoc]

theorem Json.mem_textsOfEntries {entries : List (String × Json)}
    {text : String} :
    text ∈ Json.textsOfEntries entries ↔
      ∃ entry ∈ entries, text ∈ entry.2.texts := by
  induction entries with
  | nil => simp [Json.textsOfEntries]
  | cons entry entries ih => simp [Json.textsOfEntries, ih]

/-- A capability that shares nothing with the mark. -/
structure Distinctive (secret : String) : Prop where
  opening : '[' ∉ secret.toList
  closing : ']' ∉ secret.toList
  inside : ¬ secret.toList <:+: "REDACTED".toList

/-- No text contains the secret. -/
def Free (secret : String) (texts : List String) : Prop :=
  ∀ text ∈ texts, ¬ secret.toList <:+: text.toList

theorem Distinctive.fenced {secret : String} (h : Distinctive secret) :
    Scrubbing.Fenced redactedMark.toList secret.toList :=
  ⟨'[', "REDACTED".toList, ']', by decide, h.opening, h.closing,
    h.inside⟩

theorem Distinctive.ne_nil {secret : String} (h : Distinctive secret) :
    secret.toList ≠ [] := fun hnil =>
  h.inside (by rw [hnil]; exact List.nil_infix)

theorem Distinctive.not_infix_mark {secret : String} (h : Distinctive secret) :
    ¬ secret.toList <:+: redactedMark.toList := by
  have hmark : redactedMark.toList =
      [] ++ '[' :: ("REDACTED".toList ++ ']' :: []) := by decide
  rw [hmark]
  intro hin
  rcases Scrubbing.infix_append_cons h.opening hin with hnil | hrest
  · exact h.ne_nil (List.infix_nil.mp hnil)
  · rcases Scrubbing.infix_append_cons h.closing hrest with hinside | hnil
    · exact h.inside hinside
    · exact h.ne_nil (List.infix_nil.mp hnil)

theorem Free.append {secret : String} {texts others : List String}
    (h : Free secret texts) (hothers : Free secret others) :
    Free secret (texts ++ others) := by
  intro text hmem
  rcases List.mem_append.mp hmem with hfirst | hlater
  · exact h text hfirst
  · exact hothers text hlater

/-! ## Scrubbed values -/

section Scrubbed

variable {secret : String} (hsecret : Distinctive secret)
  {knownSecrets : List String} (hknown : secret ∈ knownSecrets)

include hsecret hknown

theorem free_scrubText (text : String) :
    Free secret [scrubText knownSecrets text] := by
  intro scrubbed hmem
  rw [List.mem_singleton.mp hmem, scrubText, String.toList_ofList]
  exact Scrubbing.not_infix_strikeAll hsecret.ne_nil hsecret.fenced
    (List.mem_map_of_mem hknown) _

omit hknown in
theorem free_mark : Free secret [redactedMark] := by
  intro text hmem
  rw [List.mem_singleton.mp hmem]
  exact hsecret.not_infix_mark

/-- What is free of the secret when a list of entries is scrubbed. -/
def EntriesFree (secret : String) (knownSecrets : List String)
    (entries : List (String × Json)) : Prop :=
  (∀ except?, Free secret
      (Json.textsOfEntries (scrubEntries knownSecrets except? entries))) ∧
    Free secret
      (Json.textsOfEntries (scrubRecordFields knownSecrets entries)) ∧
    ∀ hidden, Free secret
      (Json.textsOfEntries (scrubFieldValue knownSecrets hidden entries))

def ItemsFree (secret : String) (knownSecrets : List String)
    (items : List Json) : Prop :=
  Free secret (Json.textsOfItems (scrubItems knownSecrets items)) ∧
    Free secret (Json.textsOfItems (scrubFields knownSecrets items))

def ValueFree (secret : String) (knownSecrets : List String)
    (value : Json) : Prop :=
  Free secret (scrubKnownSecrets knownSecrets value).texts ∧
    (∀ entries, value = .object entries →
      EntriesFree secret knownSecrets entries) ∧
    ∀ items, value = .array items → ItemsFree secret knownSecrets items

omit hknown in
theorem free_fieldValue {value : Json}
    (hvalue : ValueFree secret knownSecrets value) (key : String)
    (hidden : Bool) {rest : List (String × Json)}
    (hrest : Free secret (Json.textsOfEntries rest)) :
    Free secret (Json.textsOfEntries
      ((key, if hidden then .string redactedMark
        else scrubKnownSecrets knownSecrets value) :: rest)) := by
  rw [Json.textsOfEntries]
  refine Free.append ?_ hrest
  cases hidden with
  | true => exact free_mark hsecret
  | false => exact hvalue.1

omit hsecret hknown in
theorem itemsFree_cons {item : Json} {items : List Json}
    (hitem : ValueFree secret knownSecrets item)
    (hitems : Free secret
      (Json.textsOfItems (scrubFields knownSecrets items))) :
    Free secret
      (Json.textsOfItems (scrubFields knownSecrets (item :: items))) := by
  cases item with
  | object entries =>
      obtain ⟨hentries, -, hvalues⟩ := hitem.2.1 entries rfl
      rw [scrubFields, Json.textsOfItems]
      refine Free.append ?_ hitems
      split
      · rw [Json.texts, Json.textsOfEntries_append]
        exact (hentries _).append (hvalues _)
      · exact hitem.1
  | _ =>
      simp only [scrubFields, Json.textsOfItems]
      exact hitem.1.append hitems

omit hknown in
theorem entriesFree_cons {entry : String × Json}
    {entries : List (String × Json)}
    (hentry : ValueFree secret knownSecrets entry.2)
    (h : EntriesFree secret knownSecrets entries) :
    EntriesFree secret knownSecrets (entry :: entries) := by
  obtain ⟨key, value⟩ := entry
  obtain ⟨hplain, hrecord, hvalues⟩ := h
  refine ⟨fun except? => ?_, ?_, fun hidden => ?_⟩
  · rw [scrubEntries]
    split
    · exact hplain except?
    · exact free_fieldValue hsecret hentry key _ (hplain except?)
  · cases value with
    | array items =>
        rw [scrubRecordFields]
        split
        · rw [Json.textsOfEntries, Json.texts, Json.textsOfEntries,
            List.append_nil]
          exact (hentry.2.2 items rfl).2
        · exact hrecord
    | _ =>
        simp only [scrubRecordFields]
        exact hrecord
  · rw [scrubFieldValue]
    split
    · exact free_fieldValue hsecret hentry "value" hidden
        (by simp [Json.textsOfEntries, Free])
    · exact hvalues hidden

theorem valueFree (value : Json) : ValueFree secret knownSecrets value := by
  apply @Json.rec (ValueFree secret knownSecrets)
    (ItemsFree secret knownSecrets) (EntriesFree secret knownSecrets)
    (fun entry => ValueFree secret knownSecrets entry.2)
  · refine ⟨?_, by simp, by simp⟩
    simp [scrubKnownSecrets, Json.texts, Free]
  · intro flag
    refine ⟨?_, by simp, by simp⟩
    simp [scrubKnownSecrets, Json.texts, Free]
  · intro number
    refine ⟨?_, by simp, by simp⟩
    simp [scrubKnownSecrets, Json.texts, Free]
  · intro text
    refine ⟨?_, by simp, by simp⟩
    rw [scrubKnownSecrets, Json.texts]
    exact free_scrubText hsecret hknown text
  · intro items hitems
    refine ⟨?_, by simp, ?_⟩
    · rw [scrubKnownSecrets, Json.texts]
      exact hitems.1
    · rintro _ ⟨⟩
      exact hitems
  · intro entries hentries
    refine ⟨?_, ?_, by simp⟩
    · rw [scrubKnownSecrets]
      split
      · rw [Json.texts, Json.textsOfEntries_append]
        exact (hentries.1 _).append hentries.2.1
      · rw [Json.texts]
        exact hentries.1 _
    · rintro _ ⟨⟩
      exact hentries
  · exact ⟨by simp [scrubItems, Json.textsOfItems, Free],
      by simp [scrubFields, Json.textsOfItems, Free]⟩
  · intro item items hitem hitems
    constructor
    · rw [scrubItems, Json.textsOfItems]
      exact hitem.1.append hitems.1
    · exact itemsFree_cons hitem hitems.2
  · refine ⟨?_, ?_, ?_⟩
    · simp [scrubEntries, Json.textsOfEntries, Free]
    · simp [scrubRecordFields, Json.textsOfEntries, Free]
    · intro hidden
      rw [scrubFieldValue]
      split
      · rw [Json.textsOfEntries, Json.texts, Json.textsOfEntries]
        exact free_mark hsecret
      · simp [Json.textsOfEntries, Free]
  · intro entry entries hentry hentries
    exact entriesFree_cons hsecret hentry hentries
  · intro key value hvalue
    exact hvalue

end Scrubbed

/-! ## Receipts -/

/-- The fields of a receipt that repeat what the caller has written. -/
def requestFields : List String := ["query", "parameters"]

/-- The secret is in no text of these fields. -/
def KeepsOut (secret : String) (details : List (String × Json)) : Prop :=
  ∀ entry ∈ details, entry.1 ∈ requestFields → Free secret entry.2.texts

/-- None of the fields repeats what the caller has written. -/
def Unrepeated (details : List (String × Json)) : Prop :=
  ∀ entry ∈ details, entry.1 ∉ requestFields

theorem Unrepeated.keepsOut {details : List (String × Json)}
    (h : Unrepeated details) (secret : String) : KeepsOut secret details :=
  fun entry hmem hfield => absurd hfield (h entry hmem)

theorem unrepeated_nil : Unrepeated [] := by
  simp [Unrepeated]

theorem Unrepeated.cons {key : String} (hkey : key ∉ requestFields)
    (value : Json) {details : List (String × Json)} (h : Unrepeated details) :
    Unrepeated ((key, value) :: details) := by
  intro entry hmem
  rcases List.mem_cons.mp hmem with rfl | hlater
  · exact hkey
  · exact h entry hlater

theorem Unrepeated.append {details others : List (String × Json)}
    (h : Unrepeated details) (hothers : Unrepeated others) :
    Unrepeated (details ++ others) := by
  intro entry hmem
  rcases List.mem_append.mp hmem with hfirst | hlater
  · exact h entry hfirst
  · exact hothers entry hlater

theorem KeepsOut.append {secret : String} {details others : List (String × Json)}
    (h : KeepsOut secret details) (hothers : KeepsOut secret others) :
    KeepsOut secret (details ++ others) := by
  intro entry hmem
  rcases List.mem_append.mp hmem with hfirst | hlater
  · exact h entry hfirst
  · exact hothers entry hlater

theorem KeepsOut.ite {secret : String} {p : Prop} [Decidable p]
    {details others : List (String × Json)} (h : KeepsOut secret details)
    (hothers : KeepsOut secret others) :
    KeepsOut secret (if p then details else others) := by
  split
  · exact h
  · exact hothers

theorem mem_optional {key : String} {value : Option Json}
    {entry : String × Json} (h : entry ∈ optional key value) :
    entry.1 = key ∧ value = some entry.2 := by
  unfold optional at h
  cases value with
  | none => simp at h
  | some found =>
      obtain rfl : entry = (key, found) := by simpa using h
      exact ⟨rfl, rfl⟩

theorem unrepeated_optional {key : String} (hkey : key ∉ requestFields)
    (value : Option Json) : Unrepeated (optional key value) := by
  intro entry hmem
  rw [(mem_optional hmem).1]
  exact hkey

theorem unrepeated_withRecord (recordKind : String) (value : Option Json) :
    Unrepeated (withRecord recordKind value) := by
  unfold withRecord
  split
  · exact unrepeated_nil
  · apply Unrepeated.append
    · exact .cons (by decide) _ (.cons (by decide) _ unrepeated_nil)
    · exact unrepeated_optional (by decide) _

theorem unrepeated_withAction (value : Option Json) :
    Unrepeated (withAction value) := by
  unfold withAction
  repeat' apply Unrepeated.append
  · exact unrepeated_withRecord _ _
  all_goals exact unrepeated_optional (by decide) _

theorem unrepeated_withSearch (response : Option Json) :
    Unrepeated (withSearch response) := by
  unfold withSearch
  split
  · exact unrepeated_nil
  · exact .cons (by decide) _ (unrepeated_optional (by decide) _)

theorem unrepeated_withCompletion (response : Option Json) :
    Unrepeated (withCompletion response) :=
  (unrepeated_optional (by decide) _).append
    (unrepeated_optional (by decide) _)

theorem unrepeated_withTransition (request response : Option Json) :
    Unrepeated (withTransition request response) := by
  unfold withTransition
  split
  · exact unrepeated_nil
  · split
    · split
      · apply Unrepeated.append
        · apply Unrepeated.append
          · exact .cons (by decide) _ (.cons (by decide) _
              (.cons (by decide) _ unrepeated_nil))
          · exact unrepeated_optional (by decide) _
        · exact unrepeated_optional (by decide) _
      · exact unrepeated_nil
    · exact unrepeated_nil

theorem keepsOut_withSearchRequest {secret : String}
    (hsecret : Distinctive secret) {knownSecrets : List String}
    (hknown : secret ∈ knownSecrets) (request : Option Json) :
    KeepsOut secret (withSearchRequest request knownSecrets) := by
  unfold withSearchRequest
  repeat' apply KeepsOut.append
  · exact (unrepeated_optional (by decide) _).keepsOut secret
  · exact (unrepeated_optional (by decide) _).keepsOut secret
  · intro entry hmem _
    obtain ⟨query, -, hquery⟩ :=
      Option.map_eq_some_iff.mp (mem_optional hmem).2
    rw [← hquery, Json.texts]
    exact free_scrubText hsecret hknown query
  · intro entry hmem _
    obtain ⟨parameters, -, hparameters⟩ :=
      Option.map_eq_some_iff.mp (mem_optional hmem).2
    rw [← hparameters]
    exact (valueFree hsecret hknown parameters).1
  · exact (unrepeated_optional (by decide) _).keepsOut secret

/-- The receipt of an answer keeps every known capability out of what it
repeats of the request, whatever the route. -/
theorem keepsOut_sanitizeReceipt {secret : String}
    (hsecret : Distinctive secret) {knownSecrets : List String}
    (hknown : secret ∈ knownSecrets) (method path : String) (status : ℕ)
    (request response : Option Json) :
    KeepsOut secret (sanitizeReceipt method path status request response
      knownSecrets).details := by
  have hrequest := keepsOut_withSearchRequest hsecret hknown request
  have hsearch := (unrepeated_withSearch response).keepsOut secret
  change KeepsOut secret
    (routeDetails method path status request response knownSecrets)
  unfold routeDetails
  refine .ite (.append ?_ ?_) (.ite ?_ (.ite ?_ (.ite ?_ (.ite
    ((hrequest.append hsearch).append ?_) (.ite ?_ (.ite ?_ (.ite ?_ (.ite ?_
    (.ite ?_ (.ite ?_ (.ite (hrequest.append hsearch) (.ite ?_ (.ite ?_
    (.ite hrequest ?_))))))))))))))
  · exact (unrepeated_optional (by decide) _).keepsOut secret
  · exact (unrepeated_optional (by decide) _).keepsOut secret
  · exact (unrepeated_withRecord _ _).keepsOut secret
  · exact (unrepeated_withRecord _ _).keepsOut secret
  · exact (unrepeated_optional (by decide) _).keepsOut secret
  · exact (unrepeated_optional (by decide) _).keepsOut secret
  · exact (unrepeated_optional (by decide) _).keepsOut secret
  · exact (unrepeated_withRecord _ _).keepsOut secret
  · exact (unrepeated_withRecord _ _).keepsOut secret
  · exact (unrepeated_withRecord _ _).keepsOut secret
  · exact (unrepeated_withAction _).keepsOut secret
  · exact (unrepeated_withRecord _ _).keepsOut secret
  · exact (unrepeated_withCompletion _).keepsOut secret
  · exact (unrepeated_withTransition _ _).keepsOut secret
  · exact unrepeated_nil.keepsOut secret

/-! ## Runs -/

/-- The recorder has received the capability, or passed it on. -/
def Learned (journal : List Occurrence) (token : String) : Prop :=
  (∃ request method path,
    .arrived request method path (some token) ∈ journal) ∨
      ∃ node, .issued token node ∈ journal

/-- An event made in a journal keeps out what was learned before. -/
def MadeClean (journal : List Occurrence) (event : Event) : Prop :=
  ∃ before after, journal = before ++ .made event :: after ∧
    ∀ token, Learned before token → Distinctive token →
      KeepsOut token event.receipt.details

structure Discreet (r : Recorder) (journal : List Occurrence) : Prop where
  known : ∀ token, Learned journal token → token ∈ r.knownSecrets
  kept : ∀ ref, ∀ event ∈ (r.stateAt ref).events, MadeClean journal event
  described : ∀ earlier later id node descriptor,
    journal = earlier ++ .described id node descriptor :: later →
    ∀ event ∈ descriptor.events, MadeClean earlier event

theorem MadeClean.append {journal : List Occurrence} {event : Event}
    (h : MadeClean journal event) (occurrences : List Occurrence) :
    MadeClean (journal ++ occurrences) event := by
  obtain ⟨before, after, rfl, hclean⟩ := h
  exact ⟨before, after ++ occurrences, by simp, hclean⟩

theorem learned_append {journal occurrences : List Occurrence}
    {token : String} :
    Learned (journal ++ occurrences) token ↔
      Learned journal token ∨ Learned occurrences token := by
  unfold Learned
  simp only [List.mem_append, exists_or]
  exact or_or_or_comm

theorem not_learned_of_forall {occurrences : List Occurrence} {token : String}
    (hno : ∀ occurrence ∈ occurrences, occurrence.NoArrival)
    (hplain : ∀ occurrence ∈ occurrences, occurrence.Plain) :
    ¬ Learned occurrences token := by
  rintro (⟨request, method, path, hmem⟩ | ⟨node, hmem⟩)
  · exact hno _ hmem _ _ _ _ rfl
  · exact hplain _ hmem token node (.inl rfl)

/-- A move after which the states keep no event that was not made, and which
describes what the states keep. -/
theorem Discreet.step {r after : Recorder} {journal occurrences : List Occurrence}
    (h : Discreet r journal)
    (hmono : ∀ token ∈ r.knownSecrets, token ∈ after.knownSecrets)
    (hlearned : ∀ token, Learned occurrences token →
      token ∈ after.knownSecrets)
    (hevents : ∀ ref, ∀ event ∈ (after.stateAt ref).events,
      event ∈ (r.stateAt ref).events ∨
        MadeClean (journal ++ occurrences) event)
    (hdescribed : ∀ id node descriptor,
      .described id node descriptor ∈ occurrences →
      ∀ event ∈ descriptor.events, MadeClean journal event) :
    Discreet after (journal ++ occurrences) := by
  constructor
  · intro token htoken
    rcases learned_append.mp htoken with hold | hnew
    · exact hmono token (h.known token hold)
    · exact hlearned token hnew
  · intro ref event hmem
    rcases hevents ref event hmem with hold | hnew
    · exact (h.kept ref event hold).append occurrences
    · exact hnew
  · intro earlier later id node descriptor hjournal event hmem
    rcases List.append_eq_append_iff.mp hjournal with
      ⟨middle, rfl, hlater⟩ | ⟨middle, hsplit, hlater⟩
    · exact (hdescribed id node descriptor (by simp [hlater]) event hmem).append
        middle
    · cases middle with
      | nil =>
          have hhead : occurrences =
              .described id node descriptor :: later := hlater.symm
          have hmade := hdescribed id node descriptor (by simp [hhead]) event hmem
          rw [List.append_nil] at hsplit
          rwa [← hsplit]
      | cons head rest =>
          obtain ⟨rfl, -⟩ := List.cons_eq_cons.mp hlater
          exact h.described earlier rest id node descriptor hsplit event hmem

theorem events_stateFor (r : Recorder) (node ref : ℕ) {event : Event}
    (h : event ∈ ((r.stateFor node).1.stateAt ref).events) :
    event ∈ (r.stateAt ref).events := by
  unfold Recorder.stateFor at h
  split at h
  · exact h
  · unfold Recorder.stateAt at h
    rw [Keyed.get?_put] at h
    by_cases href : ref = r.nextState
    · rw [if_pos href] at h
      cases h
    · rw [if_neg href] at h
      exact h

theorem events_take (settings : Settings) (eventBytes : Event → ℕ)
    (state : InteractionState) (event : Event) {kept : Event}
    (h : kept ∈ (state.take settings eventBytes event).events) :
    kept ∈ state.events ∨ kept = event := by
  unfold InteractionState.take at h
  split at h
  · unfold InteractionState.takeDiagnostic at h
    dsimp only at h
    split at h
    · exact .inl h
    · split at h
      · exact .inl h
      · simpa using h
  · unfold InteractionState.takeGraphEvent at h
    dsimp only at h
    split at h
    · exact .inl h
    · simpa using h

theorem events_updateState {r : Recorder} {ref key : ℕ}
    {f : InteractionState → InteractionState} {event : Event}
    (h : event ∈ ((r.updateState ref f).stateAt key).events) :
    event ∈ (r.stateAt key).events ∨ event ∈ (f (r.stateAt key)).events := by
  unfold Recorder.stateAt at h ⊢
  rw [Recorder.get?_updateState] at h
  split at h
  · cases hget : r.states.get? key with
    | none =>
        rw [hget] at h
        exact .inl h
    | some state =>
        rw [hget] at h
        exact .inr h
  · exact .inl h

theorem events_record (settings : Settings) (eventBytes : Event → ℕ)
    {r : Recorder} {receipt : Option (ℕ × Receipt)} {ref : ℕ} {event : Event}
    (h : event ∈ ((r.record settings eventBytes receipt).stateAt ref).events) :
    event ∈ (r.stateAt ref).events ∨
      ∃ node made, receipt = some (node, made) ∧
        r.madeBy receipt = [.made event] ∧ event.receipt = made := by
  cases receipt with
  | none => exact .inl h
  | some found =>
      obtain ⟨node, made⟩ := found
      by_cases hexported : node ∈ r.exportedInteractions
      · rw [Recorder.record_of_mem hexported] at h
        exact .inl h
      · rw [Recorder.record_of_not_mem hexported] at h
        have hold : ∀ kept, kept ∈ ((Recorder.stateFor
            { r with sequence := r.sequence + 1 } node).1.stateAt ref).events →
            kept ∈ (r.stateAt ref).events := fun kept hkept =>
          events_stateFor { r with sequence := r.sequence + 1 } node ref hkept
        rcases events_updateState h with hkept | htaken
        · exact .inl (hold event hkept)
        · rcases events_take settings eventBytes _ _ htaken with hkept | rfl
          · exact .inl (hold event hkept)
          · exact .inr ⟨node, made, rfl, if_neg hexported, rfl⟩

/-- What is made when a request ends keeps out the known capabilities. -/
theorem Makes.keepsOut {request : Request} {knownSecrets : List String}
    {receipt : Option (ℕ × Receipt)} (h : Makes request knownSecrets receipt)
    {node : ℕ} {made : Receipt} (hmade : receipt = some (node, made))
    {token : String} (htoken : Distinctive token)
    (hknown : token ∈ knownSecrets) : KeepsOut token made.details := by
  cases h with
  | nothing hdone => cases hmade
  | diagnostic hnone herror hdetails =>
      obtain ⟨-, rfl⟩ := Prod.mk.inj (Option.some.inj hmade)
      rw [hdetails]
      exact unrepeated_nil.keepsOut token
  | answer hoperation haccounted hreceipt =>
      obtain ⟨-, rfl⟩ := Prod.mk.inj (Option.some.inj hmade)
      obtain ⟨status, requestValue, responseValue, rfl⟩ := hreceipt
      exact keepsOut_sanitizeReceipt htoken hknown _ _ _ _ _
  | failure hoperation haccounted =>
      obtain ⟨-, rfl⟩ := Prod.mk.inj (Option.some.inj hmade)
      exact unrepeated_nil.keepsOut token

theorem mem_learn (r : Recorder) (token : String) :
    token ∈ (r.learn token).knownSecrets ∧
      ∀ other ∈ r.knownSecrets, other ∈ (r.learn token).knownSecrets := by
  unfold Recorder.learn
  dsimp only
  split
  · rename_i hmem
    exact ⟨hmem, fun _ h => h⟩
  · exact ⟨by simp, fun _ h => List.mem_append_left _ h⟩

theorem knownSecrets_arrive (r : Recorder) (method path : String)
    (authorization : Option String) :
    (r.arrive method path authorization).knownSecrets =
      (r.learnFrom authorization).knownSecrets := by
  unfold Recorder.arrive Recorder.admit Recorder.enter
  dsimp only
  split
  · rfl
  · exact Recorder.stateFor_knownSecrets _ _

theorem mem_learnFrom (r : Recorder) (authorization : Option String) :
    (∀ token, bearerToken authorization = some token →
      token ∈ (r.learnFrom authorization).knownSecrets) ∧
      ∀ other ∈ r.knownSecrets,
        other ∈ (r.learnFrom authorization).knownSecrets := by
  unfold Recorder.learnFrom
  cases bearerToken authorization with
  | none => exact ⟨by simp, fun _ h => h⟩
  | some token =>
      refine ⟨?_, (mem_learn r token).2⟩
      rintro _ ⟨⟩
      exact (mem_learn r token).1

theorem events_arrive (r : Recorder) (method path : String)
    (authorization : Option String) (ref : ℕ) {event : Event}
    (h : event ∈ ((r.arrive method path authorization).stateAt ref).events) :
    event ∈ (r.stateAt ref).events := by
  obtain ⟨secrets, hsecrets⟩ := learnFrom_eq r authorization
  have hknown : ∀ kept, kept ∈
      ((r.learnFrom authorization).stateAt ref).events →
        kept ∈ (r.stateAt ref).events := by
    rw [hsecrets]
    exact fun _ h => h
  unfold Recorder.arrive Recorder.admit Recorder.enter at h
  dsimp only at h
  split at h
  · exact hknown event h
  · exact hknown event (events_stateFor _ _ ref h)

theorem Discreet.arrive {r : Recorder} {journal : List Occurrence}
    (h : Discreet r journal) (method path : String)
    (authorization : Option String) :
    Discreet (r.arrive method path authorization) (journal ++
      [.arrived r.nextRequest method path (bearerToken authorization)]) := by
  obtain ⟨hnew, hold⟩ := mem_learnFrom r authorization
  apply h.step
  · rw [knownSecrets_arrive]
    exact hold
  · rw [knownSecrets_arrive]
    rintro token (⟨request, method', path', hmem⟩ | ⟨node, hmem⟩)
    · obtain ⟨-, -, -, htoken⟩ :=
        Occurrence.arrived.inj (List.mem_singleton.mp hmem)
      exact hnew token htoken.symm
    · cases List.mem_singleton.mp hmem
  · exact fun ref event hmem => .inl (events_arrive r _ _ _ ref hmem)
  · intro id node descriptor hmem
    cases List.mem_singleton.mp hmem

/-- What a change issues becomes known, and nothing is forgotten. -/
theorem mem_applyChange (r : Recorder) (change : Option CapabilityChange) :
    (∀ token, Learned (changeOccurrences change) token →
      token ∈ (r.applyChange change).knownSecrets) ∧
      ∀ other ∈ r.knownSecrets,
        other ∈ (r.applyChange change).knownSecrets := by
  cases change with
  | none => exact ⟨by simp [changeOccurrences, Learned], fun _ h => h⟩
  | some change =>
      cases change with
      | revoke token node =>
          exact ⟨by simp [changeOccurrences, Learned], fun _ h => h⟩
      | issue token node =>
          refine ⟨fun found hfound => ?_, (mem_learn r token).2⟩
          obtain rfl : found = token := by
            simpa [changeOccurrences, Learned] using hfound
          exact (mem_learn r found).1

theorem Discreet.finish {r : Recorder} {journal : List Occurrence}
    (h : Discreet r journal) {id : ℕ} {request : Request}
    {change : Option CapabilityChange} {passed : Bool}
    {receipt : Option (ℕ × Receipt)}
    (hmakes : Makes request (r.applyChange change).knownSecrets receipt) :
    Discreet ((Recorder.record settings eventBytes
        ((r.applyChange change).passNumber passed) receipt).release id)
      (journal ++ r.endOccurrences id change passed receipt) := by
  obtain ⟨hnew, hold⟩ := mem_applyChange r change
  have hknown : ((Recorder.record settings eventBytes
      ((r.applyChange change).passNumber passed) receipt).release
        id).knownSecrets = (r.applyChange change).knownSecrets :=
    (Recorder.record_capabilities settings eventBytes _ receipt).2
  apply h.step
  · rw [hknown]
    exact hold
  · rw [hknown]
    intro token htoken
    unfold Recorder.endOccurrences at htoken
    rcases learned_append.mp htoken with hchange | hrest
    · exact hnew token hchange
    · refine absurd hrest (not_learned_of_forall ?_ ?_)
      · intro occurrence hmem
        apply noArrival_endOccurrences r id change passed receipt
        exact List.mem_append_right _ hmem
      · intro occurrence hmem
        rcases List.mem_append.mp hmem with hmade | hended
        · exact plain_madeBy _ receipt occurrence hmade
        · rw [List.mem_singleton.mp hended]
          exact fun _ _ => not_false
  · intro ref event hmem
    rcases events_record settings eventBytes hmem with
      hkept | ⟨node, made, hmade, hby, hreceipt⟩
    · left
      cases change with
      | none => exact hkept
      | some change => cases change <;> exact hkept
    · right
      refine ⟨journal ++ changeOccurrences change, [.ended id], ?_, ?_⟩
      · unfold Recorder.endOccurrences
        rw [hby]
        simp
      · intro token htoken hdistinctive
        rw [hreceipt]
        apply hmakes.keepsOut hmade hdistinctive
        rcases learned_append.mp htoken with hbefore | hchange
        · exact hold token (h.known token hbefore)
        · exact hnew token hchange
  · intro other node descriptor hmem
    exact absurd hmem
      (not_described_endOccurrences r id change passed receipt _ _ _)

theorem Discreet.turn {r : Recorder} {journal : List Occurrence}
    (h : Discreet r journal) (eventBytes : Event → ℕ) (id node ref : ℕ) :
    Discreet (r.turn eventBytes id node ref)
      (journal ++ describedBy (r.turn eventBytes id node ref) id) := by
  obtain ⟨-, hknown, -, -, hstates, -, -⟩ :=
    Recorder.turn_frame eventBytes r id node ref
  apply h.step
  · rw [hknown]
    exact fun _ h => h
  · intro token htoken
    refine absurd htoken (not_learned_of_forall ?_ (plain_describedBy _ _))
    intro occurrence hmem request method path found
    rw [describedBy_turn] at hmem
    split at hmem
    · simp [List.mem_singleton.mp hmem]
    · cases hmem
  · intro key event hmem
    unfold Recorder.stateAt at hmem ⊢
    rw [hstates] at hmem
    exact .inl hmem
  · intro other node' descriptor hmem event hevent
    rw [describedBy_turn] at hmem
    split at hmem
    · obtain ⟨-, -, rfl⟩ := Occurrence.described.inj (List.mem_singleton.mp hmem)
      exact h.kept ref event hevent
    · cases hmem

/-- A silent move that keeps the events and the known capabilities. -/
theorem Discreet.silent {r after : Recorder} {journal : List Occurrence}
    (h : Discreet r journal) (hknown : after.knownSecrets = r.knownSecrets)
    (hevents : ∀ ref, ∀ event ∈ (after.stateAt ref).events,
      event ∈ (r.stateAt ref).events) : Discreet after (journal ++ []) := by
  apply h.step
  · rw [hknown]
    exact fun _ h => h
  · simp [Learned]
  · exact fun ref event hmem => .inl (hevents ref event hmem)
  · simp

theorem Discreet.moved {r after : Recorder}
    {journal occurrences : List Occurrence} (h : Discreet r journal)
    (hmove : Moves settings eventBytes r occurrences after) :
    Discreet after (journal ++ occurrences) := by
  cases hmove with
  | arrived method path authorization => exact h.arrive method path authorization
  | ended hrequest hmakes => exact h.finish hmakes
  | flagged hf => exact h.silent rfl fun _ _ hmem => hmem
  | began node =>
      have hbegun : Discreet { (r.stateFor node).1 with
          nextExport := r.nextExport + 1 }
          (journal ++ [.began r.nextExport node]) := by
        apply h.step
        · rw [Recorder.stateFor_knownSecrets]
          exact fun _ h => h
        · simp [Learned]
        · exact fun ref event hmem => .inl (events_stateFor r node ref hmem)
        · simp
      have hturned := hbegun.turn eventBytes r.nextExport node
        (r.stateFor node).2
      rw [List.append_assoc] at hturned
      exact hturned
  | turned hexport hstage hsettled => exact h.turn eventBytes _ _ _
  | @timedOut id node ref activities hexport =>
      refine h.silent rfl fun key event hmem => ?_
      rcases events_updateState hmem with hkept | hkept <;> exact hkept
  | left hexport => exact h.silent rfl fun _ _ hmem => hmem

theorem discreet_of_reachable {s : Observed}
    (hreach : (observed settings eventBytes).Reachable s) :
    Discreet s.recorder s.journal := by
  induction hreach with
  | init hinit =>
      obtain rfl := hinit
      refine ⟨by simp [Learned], fun ref event hmem => ?_, by simp⟩
      cases hmem
  | step hprefix hstep ih =>
      obtain ⟨after, hnext, rfl⟩ := Option.map_eq_some_iff.mp hstep
      obtain ⟨owner, hlinked⟩ := (sound_of_reachable hprefix).linked
      exact ih.moved (moves_of_next settings eventBytes hlinked.proper hnext)

/-- In every run, each exported event was made before, and what it repeats of
the request's own texts holds no capability that the recorder had received or
passed on by then. -/
theorem exports_keep_out_capabilities {s : Observed}
    (hreach : (observed settings eventBytes).Reachable s)
    {earlier later : List Occurrence} {id node : ℕ} {descriptor : Descriptor}
    (hjournal : s.journal =
      earlier ++ .described id node descriptor :: later)
    {event : Event} (hevent : event ∈ descriptor.events) :
    MadeClean earlier event :=
  (discreet_of_reachable hreach).described earlier later id node descriptor
    hjournal event hevent

theorem exports_keep_out_capabilities_search :
    ∃ earlier descriptor, ∃ event ∈ descriptor.events,
      (∃ s id, (observed sampleSettings fun _ => 1).Reachable s ∧
        s.journal = earlier ++ [.described id 7 descriptor]) ∧
      MadeClean earlier event := by
  obtain ⟨s, earlier, id, descriptor, hreach, hjournal, -, hcount, -⟩ :=
    exists_sampleRun
  obtain ⟨event, hevent⟩ := List.exists_mem_of_length_pos
    (Nat.lt_of_lt_of_eq Nat.one_pos hcount.symm)
  exact ⟨earlier, descriptor, event, hevent, ⟨s, id, hreach, hjournal⟩,
    exports_keep_out_capabilities hreach hjournal hevent⟩

end GraphOperationRecorder

end RelayerGraph
