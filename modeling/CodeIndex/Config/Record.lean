import CodeIndex.Config.Basic
/-!
# Configurations as JSON

The JSON form of a configuration, with every limit and option in it, whether a user set it or not.
-/

namespace CodeIndex.Config

/-- The limits of the scheduler. -/
def Pipeline.toJson (p : Pipeline) : Json :=
  .obj
    [ ("max_concurrent_tasks", .nat p.maxConcurrentTasks),
      ("max_queue_depth", .nat p.maxQueueDepth),
      ("batch_size", .nat p.batchSize),
      ("file_workers", .nat p.fileWorkers),
      ("max_retained_tasks", .nat p.maxRetainedTasks) ]

/-- The limits for chunks and parsing. -/
def Chunking.toJson (c : Chunking) : Json :=
  .obj
    [ ("max_chunk_tokens", .nat c.maxChunkTokens),
      ("fallback_window_lines", .nat c.fallbackWindowLines),
      ("parse_timeout_ms", .nat c.parseTimeoutMs) ]

/-- Which files are taken. -/
def Source.toJson (s : Source) : Json :=
  .obj
    [ ("exclude_dirs", Json.strs s.excludeDirs),
      ("exclude_hidden", .bool s.excludeHidden),
      ("max_file_bytes", .nat s.maxFileBytes),
      ("clone_dir", Json.strOrNull s.cloneDir) ]

/-- A configuration. -/
def toJson (c : Config) : Json :=
  .obj
    [ ("pipeline", c.pipeline.toJson),
      ("chunking", c.chunking.toJson),
      ("source", c.source.toJson),
      ("classifier", .obj [("rules", .arr (c.rules.map Classifier.Rule.toJson))]) ]

end CodeIndex.Config
