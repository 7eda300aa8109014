import AuditTrail.Replay.Engine
import Mathlib.Data.List.Forall2

/-!
What a manifest compiles to: one expectation for each of its events, in order, with one matcher for
each of its fields, and its rules by their kinds. It does so exactly if each part compiles.
-/

namespace AuditTrail

theorem mapM_eq_ok_iff {α β ε : Type} {f : α → Except ε β} {items : List α} {results : List β} :
    items.mapM f = .ok results ↔ List.Forall₂ (fun item result => f item = .ok result) items results
    := by
  induction items generalizing results with
  | nil => cases results <;> simp [pure, Except.pure]
  | cons item items ih =>
      rw [List.mapM_cons]
      cases first : f item with
      | error error => cases results <;> simp [bind, Except.bind, first]
      | ok value =>
          cases later : items.mapM f <;> cases results <;>
            simp [bind, Except.bind, pure, Except.pure, first, later, ← ih]

theorem exists_forall₂ {α β : Type} {Goes : α → β → Prop} {items : List α}
    (each : ∀ item ∈ items, ∃ result, Goes item result) :
    ∃ results, List.Forall₂ Goes items results := by
  induction items with
  | nil => exact ⟨[], List.Forall₂.nil⟩
  | cons item rest ih =>
      obtain ⟨result, goes⟩ := each item List.mem_cons_self
      obtain ⟨results, all⟩ := ih fun other member => each other (List.mem_cons_of_mem _ member)
      exact ⟨result :: results, List.Forall₂.cons goes all⟩

theorem exists_of_mem_right {α β : Type} {Goes : α → β → Prop} {items : List α} {results : List β}
    {result : β} (all : List.Forall₂ Goes items results) (member : result ∈ results) :
    ∃ item ∈ items, Goes item result := by
  induction all with
  | nil => cases member
  | cons goes _ ih =>
      rcases List.mem_cons.mp member with rfl | later
      · exact ⟨_, List.mem_cons_self, goes⟩
      · obtain ⟨item, found, goes⟩ := ih later
        exact ⟨item, List.mem_cons_of_mem _ found, goes⟩

theorem Matcher.compileFields_eq_mapM (path : String) (fields : List (String × Json)) :
    compileFields path fields = fields.mapM fun field =>
      (compile (Path.join path field.1) field.2).map (field.1, ·) := by
  induction fields with
  | nil => rfl
  | cons field fields ih =>
      rw [compileFields, ih, List.mapM_cons]
      cases compile (Path.join path field.1) field.2 <;> rfl

namespace ReplayEngine

theorem compileMatchers_eq_mapM (fields : List (String × Json)) :
    compileMatchers fields = fields.mapM fun field =>
      (Matcher.compile field.1 field.2).map (field.1, ·) := by
  induction fields with
  | nil => rfl
  | cons field fields ih =>
      rw [compileMatchers, ih, List.mapM_cons]
      cases Matcher.compile field.1 field.2 <;> rfl

theorem compileEvent_eq_ok_iff {event : ExpectedEvent} {expected : Expectation} :
    compileEvent event = .ok expected ↔
      expected.eventType = event.eventType ∧ expected.optional = event.optional ∧
        compileMatchers event.fields = .ok expected.matchers := by
  obtain ⟨eventType, optional, matchers⟩ := expected
  unfold compileEvent
  cases compileMatchers event.fields <;> simp [eq_comm]

def ofParts (manifest : Manifest) (expected : List Expectation)
    (rules : List (RuleKind × PathRule)) : ReplayEngine where
  manifest := manifest.name
  expected
  ignored := rulesOf .ignore rules
  normalized := rulesOf .normalize rules
  correlationKey := manifest.correlationKey

theorem ofManifest_eq_ok_iff {manifest : Manifest} {engine : ReplayEngine} :
    ofManifest manifest = .ok engine ↔ ∃ expected rules,
      List.Forall₂ (fun event expected => compileEvent event = .ok expected)
        manifest.expectedEvents expected ∧
      List.Forall₂ (fun rule compiled => compileRule rule = .ok compiled) manifest.rules rules ∧
      engine = ofParts manifest expected rules := by
  simp only [← mapM_eq_ok_iff, ofManifest]
  cases events : manifest.expectedEvents.mapM compileEvent with
  | error error => simp [bind, Except.bind]
  | ok expected =>
      cases rules : manifest.rules.mapM compileRule with
      | error error => simp [bind, Except.bind]
      | ok rules => simp [bind, Except.bind, pure, Except.pure, ofParts, eq_comm]

end ReplayEngine

end AuditTrail
