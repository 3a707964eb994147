import CodeIndex.Chunk.Basic
import CodeIndex.Json
import CodeIndex.Resource
import CodeIndex.Task.Basic
import CodeIndex.Triple
/-!
# Records as JSON

The JSON form of resources, chunks, triples and tasks, with the members in the order of the record.
-/

namespace CodeIndex

open Json

/-- A resource. -/
def Resource.toJson (r : Resource) : Json :=
  .obj
    [ ("id", .str r.id),
      ("relative_path", .str r.relativePath),
      ("repository_root", .str r.repositoryRoot),
      ("commit_hash", strOrNull r.commitHash),
      ("branch", strOrNull r.branch),
      ("classification", .str r.classification.name),
      ("language", .str r.language),
      ("ingestion_status", .str r.status.name),
      ("content_hash", .str r.contentHash),
      ("size_bytes", .nat r.sizeBytes),
      ("ingested_at", .str r.ingestedAt.recordText),
      ("warnings", strs r.warnings) ]

/-- A chunk with everything it holds. -/
def Chunk.toJson (c : Chunk) : Json :=
  .obj
    [ ("id", .str c.id),
      ("resource_id", .str c.resourceId),
      ("seq", .nat c.seq),
      ("chunk_type", .str c.kind.name),
      ("function_name", strOrNull c.functionName),
      ("class_name", strOrNull c.className),
      ("start_line", .nat c.startLine),
      ("end_line", .nat c.endLine),
      ("language", .str c.language),
      ("token_count", .nat c.tokenCount),
      ("is_fallback", .bool c.isFallback),
      ("oversized", .bool c.oversized),
      ("content_hash", .str c.contentHash),
      ("content", .str c.content) ]

/-- A chunk without its text, the members sorted by name. -/
def Chunk.toSummary (c : Chunk) : Json :=
  .obj
    [ ("chunk_type", .str c.kind.name),
      ("class_name", strOrNull c.className),
      ("end_line", .nat c.endLine),
      ("function_name", strOrNull c.functionName),
      ("id", .str c.id),
      ("is_fallback", .bool c.isFallback),
      ("oversized", .bool c.oversized),
      ("seq", .nat c.seq),
      ("start_line", .nat c.startLine),
      ("token_count", .nat c.tokenCount) ]

/-- A triple. -/
def Triple.toJson (t : Triple) : Json :=
  .obj
    [ ("resource_id", .str t.resourceId),
      ("subject", .str t.subject),
      ("predicate", .str t.predicate.name),
      ("object", .str t.object),
      ("source_file", .str t.sourceFile),
      ("target_symbol", .str t.targetSymbol),
      ("line_number", .nat t.line),
      ("confidence", .real t.confidence.text) ]

/-- An instant, or null. -/
def Time.Timestamp.toJson? (t : Option Time.Timestamp) : Json :=
  strOrNull (t.map (·.recordText))

/-- A task. -/
def Task.toJson (t : Task) : Json :=
  .obj
    [ ("id", .str t.id),
      ("source_ref", .str t.source),
      ("branch", strOrNull t.branch),
      ("status", .str t.status.name),
      ("files_processed", .nat t.filesProcessed),
      ("total_files", .nat t.totalFiles),
      ("files_failed", .nat t.filesFailed),
      ("chunks_emitted", .nat t.chunksEmitted),
      ("triples_emitted", .nat t.triplesEmitted),
      ("current_file", strOrNull t.currentFile),
      ("error", strOrNull t.error),
      ("retry_of", strOrNull t.retryOf),
      ("submitted_at", .str t.submittedAt.recordText),
      ("started_at", Time.Timestamp.toJson? t.startedAt),
      ("finished_at", Time.Timestamp.toJson? t.finishedAt) ]

end CodeIndex
