import CodeIndex.Path
/-!
# Binary files

Which files are not text: those with one of some extensions, in any ASCII case, and those with a NUL
near their beginning.
-/

namespace CodeIndex.Source

/-- The extensions of binary files. -/
def binaryExtensions : List String :=
  ["png", "jpg", "jpeg", "gif", "bmp", "ico", "webp", "tiff", "psd", "pdf", "zip", "gz", "tgz",
    "bz2", "xz", "7z", "rar", "tar", "jar", "war", "class", "o", "a", "so", "dylib", "dll", "exe",
    "bin", "obj", "lib", "pyc", "pyo", "wasm", "rlib", "woff", "woff2", "ttf", "otf", "eot", "mp3",
    "mp4", "wav", "ogg", "avi", "mov", "mkv", "flac", "sqlite", "db", "parquet"]

/-- The extension of the path is one of a binary file. -/
def hasBinaryExtension (path : String) : Bool :=
  (Path.extension? path).any fun ext => binaryExtensions.contains (Text.asciiLowercase ext)

/-- How much of a file is looked at, in bytes. -/
def sniffedBytes : Nat := 8192

/-- A NUL stands near the beginning of the content. -/
def looksBinary (content : List UInt8) : Bool :=
  (content.take sniffedBytes).contains 0

end CodeIndex.Source
