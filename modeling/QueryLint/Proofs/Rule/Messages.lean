import QueryLint.Proofs.Rule.PreferFind

/-!
# Messages of rules

A message is made of the one scan of its template: the placeholders of the scan give way to what the
data has under their names, and the rest stays. What the data has is put in as it is, so the message
of a wait quotes the source as it stands, even where the source spells placeholders.
-/
namespace QueryLint.Rule

open QueryLint.Code QueryLint.Data QueryLint.Query QueryLint.Text

variable {template : String} {pieces : List Piece}

theorem toList_fillMessage (scan : Scan template.toList pieces) (data : Members) :
    (fillMessage template data).toList =
      pieces.flatMap (Piece.filled fun key => (data.get? key).map Value.shown) := by
  rw [fillMessage, fill, String.toList_ofList, scan.fillChars_eq]

theorem fillMessage_eq_self (scan : Scan template.toList pieces) {data : Members}
    (hnone : ∀ name written, .hole name written ∈ pieces → data.get? (String.ofList name) = none) :
    fillMessage template data = template := by
  have hvalue : ∀ name written, .hole name written ∈ pieces →
      (data.get? (String.ofList name)).map Value.shown = none := fun name written hmem => by
    rw [hnone name written hmem, Option.map_none]
  rw [fillMessage, fill, scan.fillChars_eq_self hvalue, String.ofList_toList]

/-- The report of a wait quotes the wait as it is written. -/
theorem message_report_violation (source : Source) (p : Place) (query : WaitedQuery) :
    (PreferFind.violation? source p query).map
        (fun v => (report PreferFind.info source v).map (·.message)) =
      (accessor? query.method).map fun accessor =>
        .ok ("Prefer " ++ query.variant ++ accessor ++ " method over using await " ++
          source.textOf p) := by
  cases haccessor : accessor? query.method with
  | none => simp [PreferFind.violation?, WaitedQuery.replacement, haccessor]
  | some accessor =>
    simp [PreferFind.violation?, WaitedQuery.replacement, haccessor, report, suggestionOf,
      PreferFind.messageOf_wait, Replacement.edit, bind, Except.bind, pure, Except.pure, Except.map]

/-- A template has one scan, and its messages are the pieces of it, each filled by itself. Without
anything for the names in it the template is its own message. In the message of a wait the variant, the
accessor and the wait stand as they are, whatever they spell. -/
theorem fillMessage_scan :
    (∀ template : String, ∃ pieces, Scan template.toList pieces ∧
      (∀ others, Scan template.toList others → others = pieces) ∧
      ∀ data : Members,
        (fillMessage template data).toList =
            pieces.flatMap (Piece.filled fun key => (data.get? key).map Value.shown) ∧
        ((∀ name written, .hole name written ∈ pieces →
            data.get? (String.ofList name) = none) →
          fillMessage template data = template)) ∧
    (∀ variant accessor text : String,
      messageOf PreferFind.info PreferFind.messageId
          [("queryVariant", .text variant), ("queryMethod", .text accessor),
            ("fullQuery", .text text)] =
        .ok ("Prefer " ++ variant ++ accessor ++ " method over using await " ++ text)) ∧
    ∀ (source : Source) (p : Place) (query : WaitedQuery),
      (PreferFind.violation? source p query).map
          (fun v => (report PreferFind.info source v).map (·.message)) =
        (accessor? query.method).map fun accessor =>
          .ok ("Prefer " ++ query.variant ++ accessor ++ " method over using await " ++
            source.textOf p) := by
  refine ⟨fun template => ?_, PreferFind.messageOf_wait, message_report_violation⟩
  obtain ⟨pieces, scan⟩ := exists_scan template.toList
  exact ⟨pieces, scan, fun others other => scan.unique other, fun data =>
    ⟨toList_fillMessage scan data, fillMessage_eq_self scan⟩⟩

/-- Three braces before a name, a name without a value, and a placeholder that nothing closes. The value
spells a placeholder itself. -/
theorem fillMessage_scan_tripleBrace :
    (fillMessage "\x7b\x7b\x7b a \x7d\x7d\x7b\x7bb\x7d\x7d\x7b\x7ba"
        [("a", .text "\x7b\x7ba\x7d\x7d")]).toList =
      "\x7b\x7b\x7ba\x7d\x7d\x7b\x7bb\x7d\x7d\x7b\x7ba".toList := by
  obtain ⟨pieces, _, hunique, hfill⟩ := fillMessage_scan.1
    "\x7b\x7b\x7b a \x7d\x7d\x7b\x7bb\x7d\x7d\x7b\x7ba"
  have ha : IsPlaceholder "\x7b\x7b a \x7d\x7d".toList "a".toList :=
    @IsPlaceholder.mk " ".toList "a".toList " ".toList (List.all_eq_true.mp rfl) (by decide)
      (List.all_eq_true.mp (by decide +kernel)) (List.all_eq_true.mp rfl)
  have hb : IsPlaceholder "\x7b\x7bb\x7d\x7d".toList "b".toList :=
    @IsPlaceholder.mk [] "b".toList [] nofun (by decide) (List.all_eq_true.mp (by decide +kernel)) nofun
  have hscan : Scan "\x7b\x7b\x7b a \x7d\x7d\x7b\x7bb\x7d\x7d\x7b\x7ba".toList
      [.char '\x7b', .hole "a".toList "\x7b\x7b a \x7d\x7d".toList,
        .hole "b".toList "\x7b\x7bb\x7d\x7d".toList, .char '\x7b', .char '\x7b', .char 'a'] :=
    .char (placeholder?_eq_none_iff.mp (by decide +kernel)) <| .hole ha <| .hole hb <|
      .char (placeholder?_eq_none_iff.mp (by decide +kernel)) <|
      .char (placeholder?_eq_none_iff.mp (by decide +kernel)) <|
      .char (placeholder?_eq_none_iff.mp (by decide +kernel)) .nil
  rw [(hfill _).1, ← hunique _ hscan]
  decide

end QueryLint.Rule
