/-!
# Words of the language

The words that the rules for tables use, the words that MySQL 8.0 reserves, and those that are
both. The lists are in upper case and ascending.
-/
namespace TableDdl.Keyword

/-- The words of the rules, the time functions and the data types. -/
def ddlWords : List String := [
    "ACTION", "ADD", "AFTER", "ALGORITHM", "ALL", "ALTER", "ALWAYS", "ANALYZE", "AND", "ANY",
    "AS", "ASC", "AUTOEXTEND_SIZE", "AUTO_INCREMENT", "AVG_ROW_LENGTH", "BETWEEN", "BIGINT",
    "BINARY", "BIT", "BLOB", "BOOL", "BOOLEAN", "BTREE", "BY", "BYTE", "CASCADE", "CHANGE",
    "CHAR", "CHARACTER", "CHARSET", "CHECK", "CHECKSUM", "COALESCE", "COLLATE", "COLUMN",
    "COLUMNS", "COLUMN_FORMAT", "COMMENT", "COMPACT", "COMPRESSED", "COMPRESSION", "CONNECTION",
    "CONSTRAINT", "CONVERT", "COPY", "CREATE", "CURRENT_TIMESTAMP", "DATA", "DATE", "DATETIME",
    "DEC", "DECIMAL", "DEFAULT", "DELAY_KEY_WRITE", "DELETE", "DESC", "DIRECTORY", "DISABLE",
    "DISCARD", "DISK", "DISTINCT", "DOUBLE", "DROP", "DYNAMIC", "ENABLE", "ENCRYPTION",
    "ENFORCED", "ENGINE", "ENGINE_ATTRIBUTE", "ENUM", "EXCEPT", "EXCLUSIVE", "EXISTS", "FALSE",
    "FIRST", "FIXED", "FLOAT", "FOREIGN", "FROM", "FULL", "FULLTEXT", "GENERATED", "GEOMETRY",
    "GEOMETRYCOLLECTION", "GROUP", "HASH", "HAVING", "IF", "IMPORT", "IN", "INDEX", "INPLACE",
    "INSERT_METHOD", "INSTANT", "INT", "INTEGER", "INTERSECT", "INVISIBLE", "IS", "JSON", "KEY",
    "KEY_BLOCK_SIZE", "LAST", "LESS", "LIKE", "LIMIT", "LINEAR", "LINESTRING", "LIST",
    "LOCALTIME", "LOCALTIMESTAMP", "LOCK", "LONGBLOB", "LONGTEXT", "MATCH", "MAXVALUE",
    "MAX_ROWS", "MEDIUMBLOB", "MEDIUMINT", "MEDIUMTEXT", "MEMORY", "MINUS", "MIN_ROWS", "MODIFY",
    "MULTILINESTRING", "MULTIPOINT", "MULTIPOLYGON", "NATIONAL", "NCHAR", "NO", "NONE", "NOT",
    "NOW", "NULL", "NUMERIC", "OFFSET", "ON", "OPTIMIZE", "OR", "ORDER", "PACK_KEYS", "PARSER",
    "PARTIAL", "PARTITION", "PARTITIONING", "PARTITIONS", "PASSWORD", "POINT", "POLYGON",
    "PRECISION", "PRIMARY", "RANGE", "REAL", "REBUILD", "REDUNDANT", "REFERENCES", "REMOVE",
    "RENAME", "REORGANIZE", "REPAIR", "RESTRICT", "ROW_FORMAT", "SECONDARY_ENGINE_ATTRIBUTE",
    "SELECT", "SET", "SHARED", "SIMPLE", "SMALLINT", "SOME", "SPATIAL", "STATS_AUTO_RECALC",
    "STATS_PERSISTENT", "STATS_SAMPLE_PAGES", "STORAGE", "STORED", "SUBPARTITION",
    "SUBPARTITIONS", "TABLE", "TABLESPACE", "TEMPORARY", "TEXT", "THAN", "TIME", "TIMESTAMP",
    "TINYBLOB", "TINYINT", "TINYTEXT", "TO", "TOP", "TRUE", "TRUNCATE", "TYPE", "UNION", "UNIQUE",
    "UNSIGNED", "UPDATE", "USING", "VALIDATION", "VALUES", "VARBINARY", "VARCHAR", "VIEW",
    "VIRTUAL", "VISIBLE", "WHERE", "WITH", "WITHOUT", "YEAR", "ZEROFILL"]

/-- The reserved words of MySQL 8.0, whether or not a rule uses them. -/
def reservedWords : List String := [
    "ACCESSIBLE", "ADD", "ALL", "ALTER", "ANALYZE", "AND", "AS", "ASC", "ASENSITIVE", "BEFORE",
    "BETWEEN", "BIGINT", "BINARY", "BLOB", "BOTH", "BY", "CALL", "CASCADE", "CASE", "CHANGE",
    "CHAR", "CHARACTER", "CHECK", "COLLATE", "COLUMN", "CONDITION", "CONSTRAINT", "CONTINUE",
    "CONVERT", "CREATE", "CROSS", "CUBE", "CUME_DIST", "CURRENT_DATE", "CURRENT_TIME",
    "CURRENT_TIMESTAMP", "CURRENT_USER", "CURSOR", "DATABASE", "DATABASES", "DAY_HOUR",
    "DAY_MICROSECOND", "DAY_MINUTE", "DAY_SECOND", "DEC", "DECIMAL", "DECLARE", "DEFAULT",
    "DELAYED", "DELETE", "DENSE_RANK", "DESC", "DESCRIBE", "DETERMINISTIC", "DISTINCT",
    "DISTINCTROW", "DIV", "DOUBLE", "DROP", "DUAL", "EACH", "ELSE", "ELSEIF", "EMPTY", "ENCLOSED",
    "ESCAPED", "EXCEPT", "EXISTS", "EXIT", "EXPLAIN", "FALSE", "FETCH", "FIRST_VALUE", "FLOAT",
    "FLOAT4", "FLOAT8", "FOR", "FORCE", "FOREIGN", "FROM", "FULLTEXT", "FUNCTION", "GENERATED",
    "GET", "GRANT", "GROUP", "GROUPING", "GROUPS", "HAVING", "HIGH_PRIORITY", "HOUR_MICROSECOND",
    "HOUR_MINUTE", "HOUR_SECOND", "IF", "IGNORE", "IN", "INDEX", "INFILE", "INNER", "INOUT",
    "INSENSITIVE", "INSERT", "INT", "INT1", "INT2", "INT3", "INT4", "INT8", "INTEGER",
    "INTERSECT", "INTERVAL", "INTO", "IO_AFTER_GTIDS", "IO_BEFORE_GTIDS", "IS", "ITERATE", "JOIN",
    "JSON_TABLE", "KEY", "KEYS", "KILL", "LAG", "LAST_VALUE", "LATERAL", "LEAD", "LEADING",
    "LEAVE", "LEFT", "LIKE", "LIMIT", "LINEAR", "LINES", "LOAD", "LOCALTIME", "LOCALTIMESTAMP",
    "LOCK", "LONG", "LONGBLOB", "LONGTEXT", "LOOP", "LOW_PRIORITY", "MASTER_BIND",
    "MASTER_SSL_VERIFY_SERVER_CERT", "MATCH", "MAXVALUE", "MEDIUMBLOB", "MEDIUMINT", "MEDIUMTEXT",
    "MIDDLEINT", "MINUTE_MICROSECOND", "MINUTE_SECOND", "MOD", "MODIFIES", "NATURAL", "NOT",
    "NO_WRITE_TO_BINLOG", "NTH_VALUE", "NTILE", "NULL", "NUMERIC", "OF", "ON", "OPTIMIZE",
    "OPTIMIZER_COSTS", "OPTION", "OPTIONALLY", "OR", "ORDER", "OUT", "OUTER", "OUTFILE", "OVER",
    "PARTITION", "PERCENT_RANK", "PRECISION", "PRIMARY", "PROCEDURE", "PURGE", "RANGE", "RANK",
    "READ", "READS", "READ_WRITE", "REAL", "RECURSIVE", "REFERENCES", "REGEXP", "RELEASE",
    "RENAME", "REPEAT", "REPLACE", "REQUIRE", "RESIGNAL", "RESTRICT", "RETURN", "REVOKE", "RIGHT",
    "RLIKE", "ROW", "ROWS", "ROW_NUMBER", "SCHEMA", "SCHEMAS", "SECOND_MICROSECOND", "SELECT",
    "SENSITIVE", "SEPARATOR", "SET", "SHOW", "SIGNAL", "SMALLINT", "SPATIAL", "SPECIFIC", "SQL",
    "SQLEXCEPTION", "SQLSTATE", "SQLWARNING", "SQL_BIG_RESULT", "SQL_CALC_FOUND_ROWS",
    "SQL_SMALL_RESULT", "SSL", "STARTING", "STORED", "STRAIGHT_JOIN", "SYSTEM", "TABLE",
    "TERMINATED", "THEN", "TINYBLOB", "TINYINT", "TINYTEXT", "TO", "TRAILING", "TRIGGER", "TRUE",
    "UNDO", "UNION", "UNIQUE", "UNLOCK", "UNSIGNED", "UPDATE", "USAGE", "USE", "USING",
    "UTC_DATE", "UTC_TIME", "UTC_TIMESTAMP", "VALUES", "VARBINARY", "VARCHAR", "VARCHARACTER",
    "VARYING", "VIRTUAL", "WHEN", "WHERE", "WHILE", "WINDOW", "WITH", "WRITE", "XOR",
    "YEAR_MONTH", "ZEROFILL"]

/-- The words of `ddlWords` that are reserved. -/
def reservedDdlWords : List String := [
    "ADD", "ALL", "ALTER", "ANALYZE", "AND", "AS", "ASC", "BETWEEN", "BIGINT", "BINARY", "BLOB",
    "BY", "CASCADE", "CHANGE", "CHAR", "CHARACTER", "CHECK", "COLLATE", "COLUMN", "CONSTRAINT",
    "CONVERT", "CREATE", "CURRENT_TIMESTAMP", "DEC", "DECIMAL", "DEFAULT", "DELETE", "DESC",
    "DISTINCT", "DOUBLE", "DROP", "EXCEPT", "EXISTS", "FALSE", "FLOAT", "FOREIGN", "FROM",
    "FULLTEXT", "GENERATED", "GROUP", "HAVING", "IF", "IN", "INDEX", "INT", "INTEGER", "INTERSECT",
    "IS", "KEY", "LIKE", "LIMIT", "LINEAR", "LOCALTIME", "LOCALTIMESTAMP", "LOCK", "LONGBLOB",
    "LONGTEXT", "MATCH", "MAXVALUE", "MEDIUMBLOB", "MEDIUMINT", "MEDIUMTEXT", "NOT", "NULL",
    "NUMERIC", "ON", "OPTIMIZE", "OR", "ORDER", "PARTITION", "PRECISION", "PRIMARY", "RANGE",
    "REAL", "REFERENCES", "RENAME", "RESTRICT", "SELECT", "SET", "SMALLINT", "SPATIAL", "STORED",
    "TABLE", "TINYBLOB", "TINYINT", "TINYTEXT", "TO", "TRUE", "UNION", "UNIQUE", "UNSIGNED",
    "UPDATE", "USING", "VALUES", "VARBINARY", "VARCHAR", "VIRTUAL", "WHERE", "WITH", "ZEROFILL"]

end TableDdl.Keyword
