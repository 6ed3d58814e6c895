import Subscriptions.Proofs.Core.RoundTrip
import Subscriptions.Proofs.Resolve.Shadowing

namespace Subscriptions

namespace Resolve

section
variable {use : MemberUse} {name symbol : String} {budget more : Nat} {c m : Cursor}

/-- With a larger budget more classes are looked through, and the first ones are the same. -/
theorem member?_mono (hle : budget ≤ more) (h : member? use name budget c = some m) :
    member? use name more c = some m := by
  induction budget generalizing more c with
  | zero => cases h
  | succ budget ih =>
    obtain ⟨more, rfl⟩ := Nat.exists_eq_add_of_le' (Nat.lt_of_lt_of_le budget.succ_pos hle)
    rw [member?] at h ⊢
    rcases Option.or_eq_some_iff.mp h with hown | ⟨hnone, hinherited⟩
    · rw [hown]
      rfl
    · rw [hnone, Option.none_or]
      simp only [Option.bind_eq_bind, Option.bind_eq_some_iff] at hinherited ⊢
      obtain ⟨baseName, hname, base, hbase, hmember⟩ := hinherited
      refine ⟨baseName, hname, base, hbase, ?_⟩
      obtain ⟨hself, hmember⟩ := Option.ite_none_left_eq_some.mp hmember
      rw [if_neg hself]
      exact ih (Nat.le_of_succ_le_succ hle) hmember

variable {resolve resolve' : Resolver}
  (hknown : ∀ c symbol, resolve c = some symbol → resolve' c = some symbol)
include hknown

theorem bind_resolve_mono {c? : Option Cursor} (h : c?.bind resolve = some symbol) :
    c?.bind resolve' = some symbol := by
  obtain ⟨c, hc, hsymbol⟩ := Option.bind_eq_some_iff.mp h
  exact Option.bind_eq_some_iff.mpr ⟨c, hc, hknown c symbol hsymbol⟩

theorem valueType?_mono (h : valueType? resolve c = some symbol) :
    valueType? resolve' c = some symbol := by
  unfold valueType? at h ⊢
  cases hkind : c.kind <;> rw [hkind] at h <;> dsimp only at h ⊢ <;>
    first
    | exact h
    | cases htype : c.focus.declared with
      | some text => rwa [htype] at h
      | none =>
        rw [htype] at h
        exact bind_resolve_mono hknown h

theorem classOf?_mono (h : classOf? resolve c = some m) : classOf? resolve' c = some m := by
  rw [classOf?] at h ⊢
  split at h
  · rename_i hthis
    rwa [if_pos hthis]
  · rename_i hthis
    obtain ⟨name, hname, hclass⟩ := Option.bind_eq_some_iff.mp h
    rw [if_neg hthis]
    exact Option.bind_eq_some_iff.mpr ⟨name, hknown c name hname, hclass⟩

theorem target?_mono (hle : budget ≤ more) (h : target? resolve budget c = some m) :
    target? resolve' more c = some m := by
  unfold target? at h ⊢
  split at h
  · exact h
  · simp only [Option.bind_eq_bind, Option.bind_eq_some_iff] at h ⊢
    obtain ⟨name, hname, object, hobject, owner, howner, hmember⟩ := h
    exact ⟨name, hname, object, hobject, owner, classOf?_mono hknown howner,
      member?_mono hle hmember⟩
  · cases h

theorem returnType?_mono (hle : budget ≤ more) (h : returnType? resolve budget c = some symbol) :
    returnType? resolve' more c = some symbol := by
  obtain ⟨target, htarget, hsymbol⟩ := Option.bind_eq_some_iff.mp h
  obtain ⟨hfound, hcallable⟩ := Option.filter_eq_some_iff.mp htarget
  refine Option.bind_eq_some_iff.mpr ⟨target, ?_, hsymbol⟩
  exact Option.filter_eq_some_iff.mpr ⟨target?_mono hknown hle hfound, hcallable⟩

end

/-- What is resolved within a budget is resolved to the same within a larger one. Where a search ends
for want of budget nothing is found in its place, so no other answer can come in. -/
theorem typeWithin_mono {budget more : Nat} (hle : budget ≤ more) (c : Cursor) (symbol : String)
    (h : typeWithin budget c = some symbol) : typeWithin more c = some symbol := by
  induction budget generalizing more c symbol with
  | zero => cases h
  | succ budget ih =>
    obtain ⟨more, rfl⟩ := Nat.exists_eq_add_of_le' (Nat.lt_of_lt_of_le budget.succ_pos hle)
    have hle := Nat.le_of_succ_le_succ hle
    have hknown : ∀ c symbol, typeWithin budget c = some symbol →
        typeWithin more c = some symbol := fun c symbol => ih hle c symbol
    rw [typeWithin] at h ⊢
    cases hkind : c.kind <;> rw [hkind] at h <;> dsimp only at h ⊢
    case parenthesized => exact bind_resolve_mono hknown h
    case asExpression =>
      cases htype : c.focus.declared with
      | some text => rwa [htype] at h
      | none =>
        rw [htype] at h
        exact bind_resolve_mono hknown h
    case identifier =>
      simp only [Option.bind_eq_bind, Option.bind_eq_some_iff] at h ⊢
      obtain ⟨name, hname, d, hd, hvalue⟩ := h
      exact ⟨name, hname, d, hd, valueType?_mono hknown hvalue⟩
    case propertyAccess =>
      simp only [Option.bind_eq_bind, Option.bind_eq_some_iff] at h ⊢
      obtain ⟨object, hobject, owner, howner, name, hname, member, hmember, hvalue⟩ := h
      exact ⟨object, hobject, owner, classOf?_mono hknown howner, name, hname, member,
        member?_mono hle hmember, valueType?_mono hknown hvalue⟩
    case call =>
      obtain ⟨callee, hcallee, hreturn⟩ := Option.bind_eq_some_iff.mp h
      exact Option.bind_eq_some_iff.mpr ⟨callee, hcallee, returnType?_mono hknown hle hreturn⟩
    all_goals exact h

/-- The place uses the variable: an identifier whose name is taken from that declaration. -/
structure Uses (c d : Cursor) : Prop where
  kind : c.kind = .identifier
  declaration : ∃ name, c.focus.nameText = some name ∧ declaration? c name = some d

/-- The last one of a chain of variables. The first one is declared with a type; each of the others,
as many as the chain is long, is declared without one, and a use of the one before is its value. -/
inductive Chain (text : String) : Nat → Cursor → Prop
  | typed {d : Cursor} (hkind : d.kind = .variableDeclaration ∨ d.kind = .parameter)
      (htype : d.focus.declared = some text) : Chain text 0 d
  | copy {n : Nat} {d value before : Cursor}
      (hkind : d.kind = .variableDeclaration ∨ d.kind = .parameter)
      (htype : d.focus.declared = none) (hvalue : d.lastChild? = some value)
      (huses : Uses value before) (hbefore : Chain text n before) : Chain text (n + 1) d

variable {text : String} {n depth : Nat} {c d : Cursor}

theorem Uses.typeWithin (h : Uses c d) (budget : Nat) :
    typeWithin (budget + 1) c = valueType? (typeWithin budget) d := by
  obtain ⟨name, hname, hd⟩ := h.declaration
  exact (resolvesThrough_of_declaration? h.kind hname hd).2 budget

/-- Each variable of a chain but the first takes one unit of the budget. -/
theorem Chain.valueType? (h : Chain text n d) (budget : Nat) :
    valueType? (typeWithin budget) d = if n ≤ budget then TypeName.symbol? text else none := by
  induction h generalizing budget with
  | typed hkind htype =>
    rcases hkind with hkind | hkind <;> simp [Resolve.valueType?, hkind, htype]
  | @copy n d value before hkind htype hvalue huses hbefore ih =>
    have hfollows : Resolve.valueType? (typeWithin budget) d = typeWithin budget value := by
      rcases hkind with hkind | hkind <;>
        simp [Resolve.valueType?, hkind, htype, hvalue, Option.filter_some, huses.kind]
    rw [hfollows]
    cases budget with
    | zero => rfl
    | succ budget =>
      rw [huses.typeWithin, ih budget]
      simp only [Nat.add_le_add_iff_right]

/-- The use of the last variable has the type of the first one if the chain is no longer than the
depth, and otherwise none. -/
theorem Chain.declared (h : Chain text n d) (huses : Uses c d) (depth : Nat) :
    Resolver.declared depth c = if n ≤ depth then TypeName.symbol? text else none := by
  rw [Resolver.declared, huses.typeWithin, h.valueType?]

end Resolve

namespace Core

/-- Constants with a use of the one before as their value, and a use of the last one. -/
def copies : Word → List Word → Program
  | x, [] => [.expr (.member (.word x))]
  | x, y :: ys => .const y none (.member (.word x)) :: copies y ys

/-- `const x : T = v ; const y = x ; ... z ;` -/
def chain (v type x : Word) (xs : List Word) : Program :=
  .const x (some type) (.member (.word v)) :: copies x xs

theorem nesting_chain (v type x : Word) (xs : List Word) : (chain v type x xs).nesting = 0 := by
  have hcopies (x : Word) : Stmt.levelsAll (copies x xs) = 1 := by
    induction xs generalizing x with
    | nil => rfl
    | cons y ys ih => simp [copies, Stmt.levelsAll, Stmt.levels, Expr.levels, Member.levels, ih]
  simp [Program.nesting, chain, Stmt.levelsAll, Stmt.levels, Expr.levels, Member.levels, hcopies]

end Core

namespace Resolve

open Subscriptions.Core (Word)

section
variable {r s d value : Cursor} {x : Word} {type? : Option Word} {a : Core.Expr} {S : Shape}

/-- The only child of a place, with what it stands for. -/
theorem exists_child_of_shape {kind : Kind} {name? declared? : Option String}
    (h : s.focus.shape = .node kind name? declared? [S]) : s.kind = kind ∧
      s.focus.nameText = name? ∧ s.focus.declared = declared? ∧
      ∃ n, n.shape = S ∧ s.children = [s.down 0 n] ∧ s.child? 0 = some (s.down 0 n) := by
  obtain ⟨⟨serial, kind', span, name', declared', children⟩, above⟩ := s
  rw [Node.shape, Node.shapes_eq_map, Shape.node.injEq] at h
  obtain ⟨rfl, rfl, rfl, hchildren⟩ := h
  obtain ⟨n, rfl, hn⟩ := List.map_eq_singleton_iff.mp hchildren
  exact ⟨rfl, rfl, rfl, n, hn, rfl, rfl⟩

theorem identifier_of_shape (h : s.focus.shape = Core.identifier x) :
    s.kind = .identifier ∧ s.focus.nameText = some x.text := by
  obtain ⟨⟨serial, kind, span, name, declared, children⟩, above⟩ := s
  rw [Node.shape, Core.identifier, Shape.node.injEq] at h
  exact ⟨h.1, h.2.1⟩

/-- A constant as a statement: its declaration, found under its name only, and its value. -/
theorem exists_constant (h : s.focus.shape = (Core.Stmt.const x type? a).shape) :
    ∃ d value, d.kind = .variableDeclaration ∧ d.focus.declared = type?.map Word.text ∧
      d.lastChild? = some value ∧ value.focus.shape = a.shape ∧
      value.ancestors = d :: s :: s.ancestors ∧ s.kind = .variableStatement ∧
      ∀ name, declaredBy? name s = if x.text = name then some d else none := by
  obtain ⟨hkind, -, -, n, hn, hchildren, -⟩ := exists_child_of_shape h
  obtain ⟨hkind', hname, htype, m, hm, hvalue, -⟩ := @exists_child_of_shape (s.down 0 n) _ _ _ _ hn
  refine ⟨s.down 0 n, (s.down 0 n).down 0 m, hkind', htype, ?_, hm, rfl, hkind, fun name => ?_⟩
  · rw [Cursor.lastChild?, hvalue]
    rfl
  · rw [declaredBy?, hkind, hchildren, List.find?_singleton, Node.isNamed, hname]
    simp

/-- In the scopes around the value of a constant, or around a statement with it, only the file keeps
declarations. -/
theorem declaration?_of_file (hroot : r.kind = .sourceFile) {inner : List Cursor}
    (hinner : ∀ e ∈ inner, e.kind ∈ [Kind.variableDeclaration, .variableStatement,
      .expressionStatement]) {c : Cursor} (hancestors : c.ancestors = inner ++ [r]) (name : String) :
    declaration? c name = r.children.findSome? (declaredBy? name) := by
  have hfile : declaredIn? name r = r.children.findSome? (declaredBy? name) := by
    simp [declaredIn?, hroot, Kind.isCallable, Kind.isFunction]
  have hnone : inner.findSome? (declaredIn? name) = none := by
    refine List.findSome?_eq_none_iff.mpr fun e he => ?_
    have hkind := hinner e he
    simp only [List.mem_cons, List.not_mem_nil, or_false] at hkind
    rcases hkind with hkind | hkind | hkind <;>
      simp [declaredIn?, hkind, Kind.isCallable, Kind.isFunction]
  rw [declaration?, hancestors, List.findSome?_append, hnone, Option.none_or,
    List.findSome?_singleton, hfile]

end

/-- From a constant of a chain on, each copy is one step further, and the last statement uses the
last of them. What stands before declares none of these names. -/
theorem exists_use_of_copies {r : Cursor} (hroot : r.kind = .sourceFile) (habove : r.above = [])
    {type : String} (xs : List Word) {x : Word} {k : Nat} {front todo : List Cursor} {s d : Cursor}
    (hchildren : r.children = front ++ s :: todo) (hs : declaredBy? x.text s = some d)
    (hd : Chain type k d) (hfront : ∀ y ∈ x :: xs, ∀ e ∈ front, declaredBy? y.text e = none)
    (hothers : ∀ y ∈ xs, declaredBy? y.text s = none) (hdistinct : (xs.map Word.text).Nodup)
    (htodo : todo.map (·.focus.shape) = Core.Stmt.shapes (Core.copies x xs)) :
    ∃ e c d', r.lastChild? = some e ∧ e.child? 0 = some c ∧ Uses c d' ∧
      Chain type (k + xs.length) d' := by
  have habove {e : Cursor} (he : e ∈ r.children) : e.ancestors = [r] := by
    obtain ⟨i, hi⟩ := Cursor.above_of_mem_children he
    rw [Cursor.ancestors, hi, habove]
    obtain ⟨focus, above⟩ := r
    cases habove
    rfl
  induction xs generalizing x k front todo s d with
  | nil =>
    obtain ⟨e, rfl, he⟩ := List.map_eq_singleton_iff.mp htodo
    obtain ⟨hkind, -, -, n, hn, -, hchild⟩ := exists_child_of_shape he
    obtain ⟨hidentifier, hname⟩ := @identifier_of_shape (e.down 0 n) x hn
    refine ⟨e, e.down 0 n, d, ?_, hchild, ⟨hidentifier, x.text, hname, ?_⟩, hd⟩
    · rw [Cursor.lastChild?, hchildren, List.getLast?_append]
      rfl
    · have hancestors : (e.down 0 n).ancestors = [e] ++ [r] := by
        rw [Cursor.ancestors_down, habove (by simp [hchildren])]
        rfl
      rw [declaration?_of_file hroot (by simp [hkind]) hancestors]
      exact List.findSome?_eq_some_iff.mpr ⟨front, s, _, hchildren, hs, hfront x List.mem_cons_self⟩
  | cons y ys ih =>
    obtain ⟨s', todo, rfl, hs', htodo⟩ := List.map_eq_cons_iff.mp htodo
    obtain ⟨d', value, hkind, htype, hvalue, hidentifier, hancestors, hstatement, hdeclares⟩ :=
      exists_constant hs'
    obtain ⟨hvkind, hname⟩ := identifier_of_shape hidentifier
    have huses : Uses value d := by
      refine ⟨hvkind, x.text, hname, ?_⟩
      have hways : value.ancestors = [d', s'] ++ [r] := by
        rw [hancestors, habove (by simp [hchildren])]
        rfl
      rw [declaration?_of_file hroot (by simp [hkind, hstatement]) hways]
      exact List.findSome?_eq_some_iff.mpr ⟨front, s, _, hchildren, hs, hfront x List.mem_cons_self⟩
    have hnext : Chain type (k + 1) d' := .copy (.inl hkind) htype hvalue huses hd
    obtain ⟨hfirst, hdistinct⟩ := List.nodup_cons.mp hdistinct
    have hbefore : ∀ z ∈ y :: ys, ∀ e ∈ front ++ [s], declaredBy? z.text e = none := by
      intro z hz e he
      rcases List.mem_append.mp he with he | he
      · exact hfront z (List.mem_cons_of_mem _ hz) e he
      · obtain rfl := List.mem_singleton.mp he
        exact hothers z hz
    have hnone : ∀ z ∈ ys, declaredBy? z.text s' = none := by
      intro z hz
      rw [hdeclares, if_neg]
      exact fun heq => hfirst (heq ▸ List.mem_map_of_mem hz)
    obtain ⟨e, c, last, he, hc, hlast, hchain⟩ := @ih y (k + 1) (front ++ [s]) todo s' d'
      (by simp [hchildren]) (by simp [hdeclares]) hnext hbefore hnone hdistinct htodo
    refine ⟨e, c, last, he, hc, hlast, ?_⟩
    rwa [List.length_cons, Nat.add_comm ys.length, ← Nat.add_assoc]

end Resolve

namespace Parsed

open Subscriptions.Core Resolve

/-- In a source that is such a chain, without a fault, the last statement uses the last constant. -/
theorem ofSource_chain (v type x : Word) (xs : List Word)
    (hdistinct : ((x :: xs).map Word.text).Nodup) :
    (ofSource (chain v type x xs).text).faults = [] ∧
    ∃ e c d, (ofSource (chain v type x xs).text).root.asRoot.lastChild? = some e ∧
      e.child? 0 = some c ∧ Uses c d ∧ Chain type.text xs.length d := by
  have hnesting : (chain v type x xs).nesting ≤ 40 := by
    rw [nesting_chain]
    exact Nat.zero_le 40
  obtain ⟨hfaults, hshape⟩ := ofSource_text _ hnesting
  refine ⟨hfaults, ?_⟩
  generalize (ofSource (chain v type x xs).text).root = root at hshape
  obtain ⟨serial, kind, span, name, declared, children⟩ := root
  rw [Node.shape, Program.shape, Shape.node.injEq, Node.shapes_eq_map] at hshape
  obtain ⟨rfl, -, -, hchildren⟩ := hshape
  obtain ⟨n, ns, rfl, hn, hns⟩ := List.map_eq_cons_iff.mp hchildren
  obtain ⟨hfirst, hdistinct⟩ := List.nodup_cons.mp hdistinct
  let r : Cursor := Node.asRoot ⟨serial, .sourceFile, span, name, declared, n :: ns⟩
  obtain ⟨d, -, hkind, htype, -, -, -, -, hdeclares⟩ := @exists_constant (r.down 0 n) _ _ _ hn
  have hcopies : (ns.mapIdx fun i m => r.down (i + 1) m).map (·.focus.shape) =
      Stmt.shapes (copies x xs) := by
    rw [← hns]
    refine List.ext_getElem? fun i => ?_
    rw [List.getElem?_map, List.getElem?_mapIdx, List.getElem?_map, Option.map_map]
    rfl
  have huse := @exists_use_of_copies r rfl rfl type.text xs x 0 [] _ (r.down 0 n) d
    List.mapIdx_cons (by simp [hdeclares]) (.typed (.inl hkind) htype) nofun
    (fun y hy => by
      rw [hdeclares, if_neg]
      exact fun heq => hfirst (heq ▸ List.mem_map_of_mem hy)) hdistinct hcopies
  rwa [Nat.zero_add] at huse

end Parsed

namespace Resolver

open Subscriptions.Core (Word)

/-- What is resolved at some depth is resolved to the same at any larger one. At the end of a chain
of variables, of which the first is declared with a type and each of the others is a copy of the one
before, a use has the symbol of that type if the copies are not more than the depth, and otherwise
none. Sources have such chains of every length. -/
theorem declared_keeps_answers :
    (∀ (depth more : Nat) (c : Cursor) (symbol : String), depth ≤ more →
      declared depth c = some symbol → declared more c = some symbol) ∧
    (∀ (text : String) (n : Nat) (c d : Cursor), Resolve.Chain text n d → Resolve.Uses c d →
      ∀ depth, declared depth c = if n ≤ depth then TypeName.symbol? text else none) ∧
    (∀ (v type x : Word) (xs : List Word), ((x :: xs).map Word.text).Nodup →
      let parsed := Parsed.ofSource (Core.chain v type x xs).text
      parsed.faults = [] ∧ ∃ e c, parsed.root.asRoot.lastChild? = some e ∧ e.child? 0 = some c ∧
        ∀ depth, declared depth c =
          if xs.length ≤ depth then TypeName.symbol? type.text else none) := by
  refine ⟨fun depth more c symbol hle h => ?_, fun text n c d hd huses depth => ?_,
    fun v type x xs hdistinct => ?_⟩
  · exact Resolve.typeWithin_mono (Nat.succ_le_succ hle) c symbol h
  · exact hd.declared huses depth
  · obtain ⟨hfaults, e, c, d, he, hc, huses, hd⟩ := Parsed.ofSource_chain v type x xs hdistinct
    exact ⟨hfaults, e, c, he, hc, fun depth => hd.declared huses depth⟩

/-- `const a : Subject = s ; const b = a ; const c = b ; c ;` -/
theorem declared_keeps_answers_two :
    let s : Word := ⟨'s', [], by decide, by decide, by decide⟩
    let type : Word := ⟨'S', "ubject".toList, by decide, by decide, by decide⟩
    let a : Word := ⟨'a', [], by decide, by decide, by decide⟩
    let b : Word := ⟨'b', [], by decide, by decide, by decide⟩
    let c : Word := ⟨'c', [], by decide, by decide, by decide⟩
    ∃ e use d, (Parsed.ofSource (Core.chain s type a [b, c]).text).root.asRoot.lastChild? = some e ∧
      e.child? 0 = some use ∧ Resolve.Chain "Subject" 2 d ∧ Resolve.Uses use d ∧
      declared 1 use = none ∧ declared 2 use = some "Subject" ∧ 2 ≤ 16 ∧
      declared 16 use = some "Subject" := by
  intro s type a b c
  have hdistinct : ([a, b, c].map Word.text).Nodup := by decide
  have hsymbol : TypeName.symbol? "Subject" = some "Subject" := by decide
  obtain ⟨hmore, hchain, hsource⟩ := declared_keeps_answers
  obtain ⟨-, e, use, d, he, huse, huses, hd⟩ := Parsed.ofSource_chain s type a [b, c] hdistinct
  obtain ⟨-, e', use', he', huse', hresolved⟩ := hsource s type a [b, c] hdistinct
  obtain rfl := Option.some.inj (he.symm.trans he')
  obtain rfl := Option.some.inj (huse.symm.trans huse')
  have htwo : declared 2 use = some "Subject" := (hchain "Subject" 2 use d hd huses 2).trans hsymbol
  exact ⟨e, use, d, he, huse, hd, huses, hresolved 1, htwo, by decide,
    hmore 2 16 use "Subject" (by decide) htwo⟩

end Resolver

end Subscriptions
