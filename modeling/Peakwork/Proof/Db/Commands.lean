/-
This file reads every command that the tables build.
-/

import Peakwork.Construction.Db.DBManager
import Peakwork.Library.Sql.Rules

namespace Peakwork.Db

open Sql

set_option maxRecDepth 20000

namespace Companies

def columns : List Column :=
  [{ name := "id", affinity := .integer, rowKey := true },
    { name := "uuid", affinity := .text, notNull := true, unique := true },
    { name := "full_name", affinity := .text, notNull := true },
    { name := "logo", affinity := .text }]

theorem read_createCommand : (statementTexts createCommand).map parse =
    [Statement.createTable "companies" columns []].map .statement := by
  unfold createCommand
  rw [statementTexts, tokens_spelled (by
    repeat first | with_reducible apply spelled_append | exact String.toList_ofList)]
  decide

theorem read_drop : (statementTexts ("DROP TABLE IF EXISTS " ++ table.name)).map parse =
    [Statement.dropTable "companies"].map .statement := by decide

theorem read_addCommand : parse (firstStatement (tokens addCommand)) =
    .statement (.insert true "companies" ["uuid", "full_name", "logo"]
      [.parameter ":uuid", .parameter ":name", .parameter ":logo"]) := by decide

theorem read_getField (field : Field) :
    parse (firstStatement (tokens (table.getFieldCommand (fields field) (fields .id)))) =
      .statement (.select (fields field) "companies" (some ⟨"id", .parameter ":compareValue"⟩)) := by
  cases field <;> decide

theorem read_setLogo :
    parse (firstStatement (tokens (table.updateFieldCommand (fields .logo) (fields .id)))) =
      .statement (.update "companies" "logo" (.parameter ":newValue")
        (some ⟨"id", .parameter ":searchValue"⟩)) := by decide

theorem read_removeRows :
    parse (firstStatement (tokens (table.removeRowsCommand (fields .id)))) =
      .statement (.delete "companies" (some ⟨"id", .parameter ":searchValue"⟩)) := by decide

/-- A symbol without quotes is one token of the query. -/
theorem read_getRowID (uuid : String) (noQuote : '"' ∉ uuid.toList) (noZero : hasNoZero uuid) :
    parse (firstStatement (tokens (getRowIDCommand uuid))) =
      .statement (.select "id" "companies" (some ⟨"uuid", .quoted uuid⟩)) := by
  have read := tokens_quoted ("SELECT " ++ fields .id ++ " " ++ "FROM " ++ table.name ++ " " ++
    "WHERE " ++ fields .uuid ++ " = \"") uuid "\" " (by decide) (by decide) noQuote noZero
  have last : scan (.quoted uuid.toList) (cText "\" ") = [.quoted uuid] := by
    rw [cText_plain _ (by decide)]
    simp [scan, next, after, begin, isBlank, finish]
  rw [last] at read
  unfold getRowIDCommand
  rw [read]
  rfl

theorem read_uuidPresent (uuid : String) (noQuote : '"' ∉ uuid.toList) (noZero : hasNoZero uuid) :
    parse (firstStatement (tokens (table.cellPresentCommand (fields .uuid) uuid))) =
      .statement (.selectExists "companies" (some ⟨"uuid", .quoted uuid⟩)) := by
  have read := tokens_quoted ("SELECT EXISTS(SELECT 1 FROM " ++ table.name ++ " " ++
    "WHERE " ++ fields .uuid ++ " = \"") uuid ("\" " ++ "LIMIT 1)") (by decide) (by decide) noQuote
    noZero
  have last : scan (.quoted uuid.toList) (cText ("\" " ++ "LIMIT 1)")) =
      [.quoted uuid, .word "LIMIT", .number 1, .symbol ')'] := by
    rw [cText_plain _ (by decide)]
    simp [scan, next, after, begin, isBlank, isWordStart, isWordPart, isMark, digitOf, finish]
  rw [last] at read
  rw [show table.cellPresentCommand (fields .uuid) uuid = _ from String.append_assoc, read]
  rfl

/-- The key is a number of the query, and its sign is a token of its own. -/
theorem read_idPresent (rowId : Int) : parse (firstStatement (tokens (idPresentCommand rowId))) =
    .statement (.selectExists "companies" (some ⟨"id", .number rowId⟩)) := by
  have last (value : Nat) : scan (.number value) (cText (" " ++ "LIMIT 1)")) =
      [.number value, .word "LIMIT", .number 1, .symbol ')'] := by
    rw [cText_plain _ (by decide)]
    simp [scan, next, after, begin, isBlank, isWordStart, isWordPart, isMark, digitOf, finish]
  have shape : idPresentCommand rowId = "SELECT EXISTS(SELECT 1 FROM " ++ table.name ++ " " ++ "WHERE " ++ fields .id ++
      " = " ++ toString rowId ++ (" " ++ "LIMIT 1)") := String.append_assoc
  rw [shape]
  cases rowId with
  | ofNat value =>
      have read := tokens_number ("SELECT EXISTS(SELECT 1 FROM " ++ table.name ++ " " ++ "WHERE " ++ fields .id ++
        " = ") (" " ++ "LIMIT 1)") value (by decide) (by decide)
      rw [last] at read
      rw [show toString (Int.ofNat value) = toString value from rfl, read]
      rfl
  | negSucc value =>
      have read := tokens_negative ("SELECT EXISTS(SELECT 1 FROM " ++ table.name ++ " " ++ "WHERE " ++ fields .id ++
        " = " ++ "-") (" " ++ "LIMIT 1)") (value + 1) (by decide) (by decide)
      have sign : "SELECT EXISTS(SELECT 1 FROM " ++ table.name ++ " " ++ "WHERE " ++ fields .id ++ " = " ++
          toString (Int.negSucc value) = "SELECT EXISTS(SELECT 1 FROM " ++ table.name ++ " " ++ "WHERE " ++ fields .id ++
          " = " ++ "-" ++ toString (value + 1) := String.append_assoc.symm
      rw [sign, read, last]
      rfl

end Companies

namespace Prices

def columns : List Column :=
  [{ name := "id", affinity := .integer, rowKey := true },
    { name := "price", affinity := .real, notNull := true },
    { name := "timestamp", affinity := .integer, notNull := true },
    { name := "company_rowid", affinity := .integer, notNull := true }]

def references : List ForeignKey := [⟨"company_rowid", "companies", "id"⟩]

theorem read_createCommand : (statementTexts createCommand).map parse =
    [.foreignKeys true, .createTable "prices" columns references].map .statement := by
  unfold createCommand
  rw [statementTexts, tokens_spelled (by
    repeat first | with_reducible apply spelled_append | exact String.toList_ofList)]
  decide

theorem read_drop : (statementTexts ("DROP TABLE IF EXISTS " ++ table.name)).map parse =
    [Statement.dropTable "prices"].map .statement := by decide

theorem read_addCommand : parse (firstStatement (tokens addCommand)) =
    .statement (.insert false "prices" ["company_rowid", "price", "timestamp"]
      [.parameter ":rowid", .parameter ":price", .parameter ":time"]) := by decide

theorem read_removeRows :
    parse (firstStatement (tokens (table.removeRowsCommand (fields .companyRowId)))) =
      .statement (.delete "prices" (some ⟨"company_rowid", .parameter ":searchValue"⟩)) := by decide

end Prices

namespace DBVersion

def columns : List Column :=
  [{ name := "id", affinity := .integer, rowKey := true },
    { name := "version", affinity := .integer, notNull := true }]

theorem read_createCommand : (statementTexts createCommand).map parse =
    [Statement.createTable "db_version" columns []].map .statement := by
  unfold createCommand
  rw [statementTexts, tokens_spelled (by
    repeat first | with_reducible apply spelled_append | exact String.toList_ofList)]
  decide

theorem read_drop : (statementTexts ("DROP TABLE IF EXISTS " ++ table.name)).map parse =
    [Statement.dropTable "db_version"].map .statement := by decide

theorem read_versionPresent : parse (firstStatement (tokens versionPresentCommand)) =
    .statement (.selectExists "db_version" none) := by decide

theorem read_get : parse (firstStatement (tokens getCommand)) =
    .statement (.select "version" "db_version" none) := by decide

theorem read_insert (version : Nat) : (statementTexts (insertCommand version)).map parse =
    [Statement.insert false "db_version" ["version"] [.number version]].map .statement := by
  have read := tokens_number ("INSERT INTO " ++ table.name ++ " (" ++ fields .version ++ ")" ++
    "VALUES (") ")" version (by decide) (by decide)
  have last : scan (.number version) (cText ")") = [.number version, .symbol ')'] := by
    rw [cText_plain _ (by decide)]
    simp [scan, next, after, begin, isBlank, isWordStart, isWordPart, isMark, finish]
  rw [last] at read
  unfold statementTexts insertCommand
  rw [read]
  rfl

/-- The missing blank joins the name of the table with `SET`, and no update reads like that. -/
theorem read_update (newVersion : Nat) :
    statementTexts (updateCommand newVersion) =
      [[.word "UPDATE", .word "db_versionSET", .word "version", .symbol '=', .number newVersion]] := by
  have read := tokens_number ("UPDATE " ++ table.name ++ "SET " ++ fields .version ++ " = ") ""
    newVersion (by decide) (by decide)
  have last : scan (.number newVersion) (cText "") = [.number newVersion] := rfl
  rw [last, String.append_empty] at read
  unfold statementTexts updateCommand
  rw [read]
  rfl

end DBVersion

end Peakwork.Db
