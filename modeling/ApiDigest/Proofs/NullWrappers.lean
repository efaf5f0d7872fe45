/-
  Wrappers for null.

  A union of a node and sentinels only says that null is allowed besides.  Bodies and
  responses are read without such wrappers, so it does not show in a digest which of the
  schemas of media types are wrapped.

  * `Schema.Wraps` relates a wrapper to the node in it;
  * `Document.Related` relates documents that differ in the schemas of media types alone;
  * `Document.digest_of_related`: if related schemas are the same without wrappers, then
    the digests are the same, and `Document.digest_of_wrapped` is that for schemas of
    which some are wrapped.
-/
import ApiDigest.Proofs.Agreement
import ApiDigest.Proofs.ViewedNodes

namespace ApiDigest

/-! ## Wrappers -/

/-- The node that has variants and nothing else. -/
def Schema.ofVariants (variants : List Schema) : Schema := { ofType none with variants }

/-- A union of the given node, which is neither a sentinel nor a wrapper itself, and one
    or more sentinels around it.  What else the wrapper says does not matter. -/
structure Schema.Wraps (wrapper node : Schema) : Prop where
  real : node.isNullSentinel = false
  plain : node.unwrapNullable = node
  variants : ∃ before after : List Schema, wrapper.variants = before ++ node :: after ∧
    before ++ after ≠ [] ∧ ∀ variant ∈ before ++ after, variant.isNullSentinel = true

/-- A node as it is, or in a wrapper. -/
def Schema.Wrapped (wrapped node : Schema) : Prop := wrapped = node ∨ wrapped.Wraps node

namespace Schema

variable {wrapper wrapped node : Schema}

theorem Wraps.realVariants (h : wrapper.Wraps node) : wrapper.realVariants = [node] := by
  obtain ⟨before, after, hvariants, -, hnull⟩ := h.variants
  have hnone : ∀ {variants : List Schema}, (∀ v ∈ variants, v ∈ before ++ after) →
      (variants.filter fun variant => !variant.isNullSentinel) = [] := fun hsub =>
    List.filter_eq_nil_iff.2 fun v hv => by simp [hnull v (hsub v hv)]
  rw [Schema.realVariants, hvariants, List.filter_append, List.filter_cons_of_pos (by simp [h.real]),
    hnone fun v hv => List.mem_append_left _ hv, hnone fun v hv => List.mem_append_right _ hv,
    List.nil_append]

theorem Wraps.two_le (h : wrapper.Wraps node) : 2 ≤ wrapper.variants.length := by
  obtain ⟨before, after, hvariants, hsentinels, -⟩ := h.variants
  have hpos := List.length_pos_iff.2 hsentinels
  rw [List.length_append] at hpos
  rw [hvariants, List.length_append, List.length_cons]
  omega

/-- **The node in a wrapper.** -/
theorem Wraps.unwrapNullable (h : wrapper.Wraps node) : wrapper.unwrapNullable = node := by
  rw [Schema.unwrapNullable, if_neg (Nat.not_lt.2 h.two_le), h.realVariants]

theorem Wrapped.unwrapNullable (h : wrapped.Wrapped node) :
    wrapped.unwrapNullable = node.unwrapNullable := by
  rcases h with rfl | h
  · rfl
  · rw [h.unwrapNullable, h.plain]

end Schema

/-! ## Documents with related schemas -/

/-- The same keys in the same order, with related values. -/
def Fields.Related {α : Type} (S : α → α → Prop) (l m : List (String × α)) : Prop :=
  List.Forall₂ (fun a b => a.1 = b.1 ∧ S a.2 b.2) l m

/-- Tables with related entries. -/
def Table.Related {α : Type} (S : α → α → Prop) (t u : Table α) : Prop :=
  Fields.Related S t.entries u.entries

section
variable (R : Schema → Schema → Prop)

/-- Media types with related schemas. -/
def MediaType.Related (m n : MediaType) : Prop := Option.Rel R m.schema n.schema

/-- Bodies with related schemas. -/
structure Body.Related (b c : Body) : Prop where
  required : b.required = c.required
  content : b.content.Related (MediaType.Related R) c.content

/-- Responses with related schemas. -/
def Response.Related (r s : Response) : Prop := r.content.Related (MediaType.Related R) s.content

/-- Operations whose bodies and responses have related schemas. -/
structure Operation.Related (o p : Operation) : Prop where
  id : o.id = p.id
  tags : o.tags = p.tags
  parameters : o.parameters = p.parameters
  body : Option.Rel (Body.Related R) o.body p.body
  responses : o.responses.Related (Response.Related R) p.responses

/-- Paths with related operations. -/
structure PathItem.Related (i j : PathItem) : Prop where
  operation : ∀ m, Option.Rel (Operation.Related R) (i.operation m) (j.operation m)
  parameters : i.parameters = j.parameters

/-- Documents that differ in the schemas of bodies and responses alone, and these are
    related one by one. -/
structure Document.Related (d e : Document) : Prop where
  paths : d.paths.Related (PathItem.Related R) e.paths
  schemas : d.schemas = e.schemas

end

/-! ## Related optional values -/

section
variable {α β : Type} {S : α → α → Prop} {T : β → β → Prop}

theorem rel_or {a b c d : Option α} (h : Option.Rel S a b) (h' : Option.Rel S c d) :
    Option.Rel S (a.or c) (b.or d) := by
  cases h with
  | none => exact h'
  | some h => exact .some h

theorem rel_bind {f g : α → Option β} (hfg : ∀ x y, S x y → Option.Rel T (f x) (g y))
    {a b : Option α} (h : Option.Rel S a b) : Option.Rel T (a.bind f) (b.bind g) := by
  cases h with
  | none => exact .none
  | some h => exact hfg _ _ h

theorem rel_findSome? {f g : α → Option β} (hfg : ∀ x y, S x y → Option.Rel T (f x) (g y))
    {l m : List α} (h : List.Forall₂ S l m) :
    Option.Rel T (l.findSome? f) (m.findSome? g) := by
  induction h with
  | nil => exact .none
  | cons hhead _ ih =>
    have hfound := hfg _ _ hhead
    rw [List.findSome?_cons, List.findSome?_cons]
    generalize f _ = x, g _ = y at hfound ⊢
    cases hfound with
    | none => exact ih
    | some h => exact .some h

theorem map_eq_of_rel {f : α → β} (hf : ∀ x y, S x y → f x = f y) {a b : Option α}
    (h : Option.Rel S a b) : a.map f = b.map f := by
  cases h with
  | none => rfl
  | some h => exact congrArg some (hf _ _ h)

theorem Fields.Related.get? {l m : List (String × α)} (h : Fields.Related S l m) (key : String) :
    Option.Rel S (Fields.get? key l) (Fields.get? key m) := by
  induction h with
  | nil => exact .none
  | cons hhead _ ih =>
    rw [Fields.get?, Fields.get?, hhead.1]
    split_ifs
    · exact .some hhead.2
    · exact ih

end

/-! ## Schemas that are read -/

section
variable {R : Schema → Schema → Prop}

theorem rel_selectSchema {t u : Table MediaType} (h : t.Related (MediaType.Related R) u) :
    Option.Rel R (selectSchema t) (selectSchema u) := by
  have hfirst : ∀ {l m : List (String × MediaType)}, Fields.Related (MediaType.Related R) l m →
      Option.Rel R (l.findSome? fun entry => entry.2.schema)
        (m.findSome? fun entry => entry.2.schema) :=
    rel_findSome? fun _ _ hentry => hentry.2
  have hsuffix : Fields.Related (MediaType.Related R)
      (t.entries.filter fun entry => Text.endsWith "+json" entry.1)
      (u.entries.filter fun entry => Text.endsWith "+json" entry.1) :=
    List.rel_filter (fun _ _ hentry => iff_of_eq
      (congrArg (fun key => Text.endsWith "+json" key = true) hentry.1)) h
  have hjson := Fields.Related.get? h "application/json"
  exact rel_or (rel_bind (fun _ _ hmedia => hmedia) hjson) (rel_or (hfirst hsuffix) (hfirst h))

namespace Operation.Related

variable {o p : Operation} (h : o.Related R p)
include h

theorem bodySchema? : Option.Rel R o.bodySchema? p.bodySchema? :=
  rel_bind (fun _ _ hbody => rel_selectSchema hbody.content) h.body

theorem responseSchema? : Option.Rel R o.responseSchema? p.responseSchema? := by
  have hfound : Option.Rel (Response.Related R) (successStatuses.findSome? o.responses.get?)
      (successStatuses.findSome? p.responses.get?) :=
    rel_findSome? (fun status _ hstatus => hstatus ▸ Fields.Related.get? h.responses status)
      (List.forall₂_same.2 fun _ _ => rfl)
  exact rel_bind (fun _ _ hresponse => rel_selectSchema hresponse) hfound

end Operation.Related

/-! ## Digests of related documents -/

variable (hR : ∀ a b, R a b → a.unwrapNullable = b.unwrapNullable)
include hR

theorem PathItem.Related.agree {i j : PathItem} (h : i.Related R j) (path : String) :
    List.Forall₂ Visit.Agree (i.visits path) (j.visits path) := by
  have hoperations : List.Forall₂ (fun a b => a.1 = b.1 ∧ a.2.Related R b.2)
      i.operations j.operations := by
    refine forall₂_filterMap fun m _ => ?_
    have hop := h.operation m
    generalize i.operation m = o, j.operation m = p at hop ⊢
    cases hop with
    | none => exact .none
    | some hop => exact .some ⟨rfl, hop⟩
  refine List.rel_map ?_ hoperations
  rintro ⟨m, o⟩ ⟨-, p⟩ ⟨rfl, hop⟩
  exact {
    path := rfl
    method := rfl
    id := congrArg (Option.filter (· ≠ "")) hop.id
    tags := hop.tags
    parameters := congrArg₂ mergeParameters h.parameters hop.parameters
    body := map_eq_of_rel hR hop.bodySchema?
    response := map_eq_of_rel hR hop.responseSchema? }

/-- **If related schemas are the same without wrappers, so are the digests** of documents
    with related schemas. -/
theorem Document.digest_of_related {d e : Document} (h : d.Related R e) : d.digest = e.digest := by
  refine Document.digest_congr h.schemas (List.rel_flatMap h.paths ?_)
  rintro ⟨path, i⟩ ⟨-, j⟩ ⟨rfl, hitem⟩
  exact hitem.agree hR path

end

/-- **Wrappers for null around bodies and responses do not show in a digest.** -/
theorem Document.digest_of_wrapped {d e : Document} (h : d.Related Schema.Wrapped e) :
    d.digest = e.digest :=
  digest_of_related (fun _ _ hwrapped => hwrapped.unwrapNullable) h

/-- Memos can be written and are answered with what was written. -/
def memos (body response : Schema) : Document :=
  let content (schema : Schema) : Table MediaType :=
    ⟨[("application/json", ⟨some schema⟩)], List.nodup_singleton _⟩
  let write : Operation :=
    { id := some "write", tags := [], parameters := []
      body := some ⟨true, content body⟩
      responses := ⟨[("200", ⟨content response⟩)], List.nodup_singleton _⟩ }
  { paths := ⟨[("/memos", ⟨fun m => if m = .post then some write else none, []⟩)],
      List.nodup_singleton _⟩
    schemas := .empty }

/-- A memo. -/
def memo : Schema :=
  { Schema.ofType none with properties := [("text", .ofType (some (.single "string")))] }

/-- Sentinels of all three kinds around a memo. -/
def memoOrNull : Schema :=
  .ofVariants [
    .ofType (some (.single "null")),
    memo,
    { Schema.ofType none with negated := some (.obj []) },
    { Schema.ofType none with literals := some [.null], nullable := some true }]

theorem wraps_memoOrNull : memoOrNull.Wraps memo where
  real := by decide
  plain := rfl
  variants := ⟨[_], [_, _], rfl, by simp, by decide⟩

theorem Document.digest_of_wrapped_memos :
    (memos memoOrNull memo).Related Schema.Wrapped (memos memo memo) ∧
      (memos memoOrNull memo).digest = (memos memo memo).digest := by
  have hcontent : ∀ {wrapped : Schema}, wrapped.Wrapped memo →
      Fields.Related (MediaType.Related Schema.Wrapped)
        [("application/json", ⟨some wrapped⟩)] [("application/json", ⟨some memo⟩)] :=
    fun hwrapped => .cons ⟨rfl, .some hwrapped⟩ .nil
  have hrelated : (memos memoOrNull memo).Related Schema.Wrapped (memos memo memo) := by
    refine ⟨.cons ⟨rfl, ⟨fun m => ?_, rfl⟩⟩ .nil, rfl⟩
    by_cases hm : m = .post
    · subst hm
      exact .some ⟨rfl, rfl, rfl, .some ⟨rfl, hcontent (Or.inr wraps_memoOrNull)⟩,
        .cons ⟨rfl, hcontent (Or.inl rfl)⟩ .nil⟩
    · simp only [if_neg hm]
      exact .none
  exact ⟨hrelated, digest_of_wrapped hrelated⟩

end ApiDigest
